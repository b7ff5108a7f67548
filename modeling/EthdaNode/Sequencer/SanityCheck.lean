import EthdaNode.State.BatchFormat
import EthdaNode.Sequencer.TxTracker

/-!
# The sanity check of a closed batch

`batchSanityCheck` executes a stored batch again. `Halt` does not return, which is the outcome
`hang`. The batch is marked as checked by the last call, so the mark is the outcome `ok`.
-/

namespace EthdaNode.Sequencer

open Go Go.Outcome State

inductive SanityError where
  | errGetBatchByNumber | errProcessBatch | errExecutorError | errProcessBatchOOC
  | errStateRootNoMatch | errUpdateBatchAsChecked

/-- What the sanity check reads of `state.ProcessBatchResponse`. -/
structure Reexecution where
  executorError : Bool
  isRomOOCError : Bool
  newStateRoot : Hash

/-- The data of the batch, whether the leaves for its blocks are found, the response of the
executor to a state root and transactions, and whether the mark is written. -/
structure SanityCheck where
  geth : GoEthereum
  batch : Option GoBytes
  leavesFound : BatchRawV2 → Bool
  processBatchV2 : Hash → GoBytes → Option Reexecution
  updateBatchAsChecked : Bool
  initialStateRoot : Hash
  expectedNewStateRoot : Hash

namespace SanityCheck

variable (c : SanityCheck)

def reprocessError : Option GoBytes → Outcome SanityError Unit
  | none => .panic
  | some batchL2Data =>
    match decodeBatchV2 c.geth batchL2Data with
    | .ok _ => .hang
    | .err _ => .ok ()
    | .panic => .panic
    | .hang => .hang

def getL1InfoTreeData (batchL2Data : GoBytes) : Outcome SanityError Unit := do
  let batchRaw ← (decodeBatchV2 c.geth batchL2Data).mapErr fun _ => .errGetBatchByNumber
  if c.leavesFound batchRaw then .ok () else .err .errGetBatchByNumber

def checkResponse (batchL2Data : GoBytes) : Option SanityError :=
  match c.processBatchV2 c.initialStateRoot batchL2Data with
  | none => some .errProcessBatch
  | some r =>
    if r.executorError then some .errExecutorError
    else if r.isRomOOCError then some .errProcessBatchOOC
    else if r.newStateRoot ≠ c.expectedNewStateRoot then some .errStateRootNoMatch
    else none

def failed (batch : Option GoBytes) (e : SanityError) : Outcome SanityError Unit := do
  c.reprocessError batch
  .err e

def batchSanityCheck : Outcome SanityError Unit :=
  match c.batch with
  | none => .err .errGetBatchByNumber
  | some batch =>
    match c.getL1InfoTreeData batch with
    | .ok _ =>
      match c.checkResponse batch with
      | some e => c.failed batch e
      | none =>
        if c.updateBatchAsChecked then .ok () else c.failed batch .errUpdateBatchAsChecked
    | .err e => c.failed none e
    | .panic => .panic
    | .hang => .hang

/-- There is no panic, only a batch that gives the expected root again is marked, and any other one
halts the finalizer. -/
structure Sound : Prop where
  noPanic : c.batchSanityCheck ≠ .panic
  marked : c.batchSanityCheck = .ok () →
    ∃ batch, c.batch = some batch ∧ c.checkResponse batch = none
  halted : ∀ batch, c.batch = some batch → c.getL1InfoTreeData batch = .ok () →
    c.checkResponse batch ≠ none → c.batchSanityCheck = .hang

variable {c} {batch b : GoBytes}

lemma failed_eq_hang (h : c.getL1InfoTreeData b = .ok ()) (e : SanityError) :
    c.failed b e = .hang := by
  obtain ⟨batchRaw, hd, -⟩ := ok_of_bind h
  rw [failed, reprocessError, mapErr_ok_iff.mp hd, hang_bind]

lemma getL1InfoTreeData_ne_hang : c.getL1InfoTreeData b ≠ .hang := by
  have hd := decodeBatchV2_ne_hang c.geth b
  unfold getL1InfoTreeData
  cases h : decodeBatchV2 c.geth b with
  | hang => exact absurd h hd
  | ok batchRaw =>
    rw [mapErr_ok, ok_bind]
    split_ifs
    · nofun
    · nofun
  | _ => nofun

end SanityCheck

end EthdaNode.Sequencer
