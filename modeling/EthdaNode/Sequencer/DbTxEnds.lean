import EthdaNode.Support.Fallible

/-!
# How the finalizer ends its database transactions

`processForcedBatch`, `finalizeSIPBatch` and `storeL2Block`, reduced to their calls that
can fail and to the state of `dbTx`. The driver closes a transaction for which `Commit` or
`Rollback` is called, also when the call returns an error.
-/

namespace EthdaNode.Sequencer.DbTx

open Fallible

inductive Call where
  | beginStateTransaction | commit
  | getBlockByNumber | openBatch | processBatchV2 | closeBatch | handleProcessForcedBatchResponse
  | closeSIPBatch | insertSIPBatch | storeL2Block | getBatchByNumber | updateWIPBatch
  | encodeTransaction (tx : ℕ)
  | updateTxStatus (tx : ℕ)
  deriving DecidableEq

/-- Whether `dbTx` is open. -/
abbrev M := Fallible Bool Call

variable (fails fs : Call → Bool)

def call (c : Call) : M Unit :=
  if fails c then .fail c else pure ()

def beginStateTransaction : M Unit := do
  call fails .beginStateTransaction
  modify fun _ => true

def commit : M Unit := do
  modify fun _ => false
  call fails .commit

def rollbackOnError (x : M Unit) : M Unit := x.onError fun _ => false

def processForcedBatch (hasBlocks : Bool) : M Unit := do
  beginStateTransaction fails
  call fails .getBlockByNumber
  rollbackOnError (call fails .openBatch)
  rollbackOnError (call fails .processBatchV2)
  rollbackOnError (call fails .closeBatch)
  when hasBlocks (rollbackOnError (call fails .handleProcessForcedBatchResponse))
  rollbackOnError (commit fails)

/-- `finalizeSIPBatch`; the rollback of the source comes after the return. -/
def finalizeSIPBatch : M Unit := do
  beginStateTransaction fails
  call fails .closeSIPBatch
  commit fails

/-- `storeL2Block` from the begin of its transaction on. -/
def storeL2Block (hasSIPBatch isNewBatch : Bool) (txs : List ℕ) : M Unit := do
  beginStateTransaction fails
  when (isNewBatch && hasSIPBatch) (rollbackOnError (call fails .closeSIPBatch))
  when isNewBatch (rollbackOnError (call fails .insertSIPBatch))
  rollbackOnError (call fails .storeL2Block)
  rollbackOnError (call fails .getBatchByNumber)
  forEach (fun tx => rollbackOnError (call fails (.encodeTransaction tx))) txs
  rollbackOnError (call fails .updateWIPBatch)
  commit fails
  forEach (fun tx => call fails (.updateTxStatus tx)) txs

/-- However the call returns, its transaction is not left open. -/
def Ends (x : M Unit) : Prop := (x false).2 = false

open Fallible

variable {fs}

/-- From an open transaction the computation goes on with it open, and it fails with it
closed. -/
abbrev Safe (x : M Unit) : Prop :=
  Triple (fun s => s = true) x (fun _ s => s = true) fun s => s = false

/-- From an open transaction the computation ends with it closed. -/
abbrev Closes (x : M Unit) : Prop :=
  Triple (fun s => s = true) x (fun _ s => s = false) fun s => s = false

lemma triple_call {P : Bool → Prop} (c : Call) : Triple P (call fs c) (fun _ => P) P := by
  unfold call
  split
  · exact .fail c fun _ h => h
  · exact .ret () fun _ h => h

lemma safe_call (c : Call) : Safe (rollbackOnError (call fs c)) :=
  (triple_call c).onError fun _ _ => rfl

lemma safe_when (b : Bool) (c : Call) : Safe (when b (rollbackOnError (call fs c))) :=
  .when (fun _ => safe_call c) fun _ _ h => h

lemma closes_commit : Closes (commit fs) :=
  .bind (.modify fun _ _ => rfl) fun _ => triple_call .commit

variable {x : M Unit} (h : Closes x)
include h

lemma Closes.ended : (x true).2 = false := by
  obtain ⟨hok, herr⟩ := h true rfl
  cases hx : (x true).1 with
  | ok => exact hok _ hx
  | error e => exact herr e hx

lemma Closes.ends : Ends (beginStateTransaction fs >>= fun _ => x) := by
  unfold Ends beginStateTransaction call
  cases fs .beginStateTransaction with
  | true => rfl
  | false => exact h.ended

lemma Closes.ends_call_iff (c : Call) :
    Ends (beginStateTransaction fs >>= fun _ => call fs c >>= fun _ => x) ↔
    (fs .beginStateTransaction = false → fs c = false) := by
  unfold Ends beginStateTransaction call
  cases fs .beginStateTransaction with
  | true => exact ⟨fun _ => nofun, fun _ => rfl⟩
  | false =>
    cases fs c with
    | true => exact ⟨nofun, fun h => nomatch h rfl⟩
    | false => exact ⟨fun _ _ => rfl, fun _ => h.ended⟩

omit h

/-- The functions end their transactions exactly if the two calls succeed whose errors have no
rollback. -/
theorem ends_iff (fails : Call → Bool) : (∀ hasBlocks, Ends (processForcedBatch fails hasBlocks)) ∧
    Ends (finalizeSIPBatch fails) ∧
    (∀ hasSIPBatch isNewBatch txs, Ends (storeL2Block fails hasSIPBatch isNewBatch txs)) ↔
    (fails .beginStateTransaction = false →
    fails .getBlockByNumber = false ∧ fails .closeSIPBatch = false) := by
  have hforced : ∀ hasBlocks, Ends (processForcedBatch fails hasBlocks) ↔
      (fails .beginStateTransaction = false → fails .getBlockByNumber = false) := by
    intro hasBlocks
    refine Closes.ends_call_iff ?_ _
    refine .bind (safe_call _) fun _ => .bind (safe_call _) fun _ => .bind (safe_call _) fun _ => ?_
    exact .bind (safe_when _ _) fun _ => closes_commit.onError fun _ _ => rfl
  have hstore : ∀ hasSIPBatch isNewBatch txs,
      Ends (storeL2Block fails hasSIPBatch isNewBatch txs) := by
    intro hasSIPBatch isNewBatch txs
    refine Closes.ends ?_
    refine .bind (safe_when _ _) fun _ => .bind (safe_when _ _) fun _ => ?_
    refine .bind (safe_call _) fun _ => .bind (safe_call _) fun _ => ?_
    refine .bind (.forEach fun tx _ => safe_call _) fun _ => .bind (safe_call _) fun _ => ?_
    exact .bind closes_commit fun _ => .forEach fun tx _ => triple_call _
  rw [forall_congr' hforced, forall_const, show Ends (finalizeSIPBatch fails) ↔ _ from
    closes_commit.ends_call_iff .closeSIPBatch, and_iff_left hstore, imp_and]

/-- When the L1 block of the forced batch is not found the transaction stays open. -/
theorem getBlockByNumber_leaves_open :
    ¬Ends (processForcedBatch (fun c => c = .getBlockByNumber) true) := by
  unfold Ends
  decide

end EthdaNode.Sequencer.DbTx
