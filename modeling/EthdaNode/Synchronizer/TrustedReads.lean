import EthdaNode.Support.Agreement
import EthdaNode.Synchronizer.TrustedRows

/-!
# Steps of the trusted synchronization that do the same

A step reads the batch and the one before it, from the cache or from the database. What is in
the cache may differ from the row in fields that the step does not use, and in the accumulated
input hash of a batch that is open, as no batch is opened after it. So the step does the same
with what is in the cache and with the rows.
-/

namespace EthdaNode.Synchronizer.TrustedSync

open State
open L1InfoTree (zeroHash)
open Sequencer (Hash zeroCounters)
open Fallible
open Go Go.Outcome

variable {env : TrustedEnv} {now : ℤ} {db : Db} {bt : RpcBatch} {n : UInt64}

/-! ## Batches that are the same for a step -/

/-- Batches that differ at most in the hash, the time, the forced batch and the resources. -/
structure SameBatch (b row : BatchRow) : Prop where
  batchNumber : b.batchNumber = row.batchNumber
  coinbase : b.coinbase = row.coinbase
  batchL2Data : b.batchL2Data = row.batchL2Data
  stateRoot : b.stateRoot = row.stateRoot
  localExitRoot : b.localExitRoot = row.localExitRoot
  globalExitRoot : b.globalExitRoot = row.globalExitRoot
  wip : b.wip = row.wip

lemma SameBatch.refl (b : BatchRow) : SameBatch b b := ⟨rfl, rfl, rfl, rfl, rfl, rfl, rfl⟩

variable {b : BatchRow}

lemma SameBatch.symm {row : BatchRow} (h : SameBatch b row) : SameBatch row b :=
  ⟨h.1.symm, h.2.symm, h.3.symm, h.4.symm, h.5.symm, h.6.symm, h.7.symm⟩

lemma SameBatch.trans {a c : BatchRow} (h : SameBatch a b) (h' : SameBatch b c) : SameBatch a c :=
  ⟨h.1.trans h'.1, h.2.trans h'.2, h.3.trans h'.3, h.4.trans h'.4, h.5.trans h'.5,
    h.6.trans h'.6, h.7.trans h'.7⟩

variable {b' : BatchRow}

lemma SameBatch.areEqual_eq (h : SameBatch b b') (bt : RpcBatch) (ignoreWIP : Bool) :
    areEqualStateBatchAndTrustedBatch b bt true ignoreWIP =
    areEqualStateBatchAndTrustedBatch b' bt true ignoreWIP := by
  simp only [areEqualStateBatchAndTrustedBatch, h.batchNumber, h.coinbase, h.batchL2Data,
    h.stateRoot, h.localExitRoot, h.globalExitRoot, h.wip, Bool.true_or]

lemma areEqual_false_of_ignoring (h : areEqualStateBatchAndTrustedBatch b bt true true = false) :
    areEqualStateBatchAndTrustedBatch b bt true false = false := by
  rw [← Bool.not_eq_true] at h ⊢
  refine mt (fun he => ?_) h
  simp only [areEqualStateBatchAndTrustedBatch, Bool.and_eq_true] at he ⊢
  exact ⟨he.1, Bool.true_or _⟩

def ProcessData.withBatches (data : ProcessData) (stateBatch : Option BatchRow)
    (previousStateBatch : BatchRow) : ProcessData :=
  { data with stateBatch, previousStateBatch }

section
variable (d : ProcessData) (c : Option BatchRow) (p : BatchRow)

@[simp] lemma ProcessData.withBatches_mode : (d.withBatches c p).mode = d.mode := rfl

@[simp] lemma ProcessData.withBatches_trustedBatch :
    (d.withBatches c p).trustedBatch = d.trustedBatch := rfl

@[simp] lemma ProcessData.withBatches_batchMustBeClosed :
    (d.withBatches c p).batchMustBeClosed = d.batchMustBeClosed := rfl

@[simp] lemma ProcessData.withBatches_stateBatch : (d.withBatches c p).stateBatch = c := rfl
end

/-- The step starts from the same state root and hash. -/
def SameStart (p p' : BatchRow) : Prop :=
  p.stateRoot = p'.stateRoot ∧ p.accInputHash = p'.accInputHash

variable {p p' : BatchRow}

lemma modeOfStateBatch_eq (hb : SameBatch b b') (hp : SameStart p p') :
    modeOfStateBatch env bt b p = modeOfStateBatch env bt b' p' := by
  simp only [modeOfStateBatch, hb.batchL2Data, hb.wip, hb.stateRoot, hp.1, hb.areEqual_eq bt false]

lemma forceReprocess_eq (hp : SameStart p p') (choice : ModeChoice) :
    forceReprocess env p choice = forceReprocess env p' choice := by
  simp only [forceReprocess, hp.1]

/-- Batches of the state that are there or not in both cases, and are the same then. -/
def SameCurrent : Option BatchRow → Option BatchRow → Prop
  | none, none => True
  | some b, some b' => SameBatch b b'
  | _, _ => False

variable {c' c : Option BatchRow}

lemma processMode_eq (hc : SameCurrent c c') (hp : SameStart p p') :
    getModeForProcessBatch env bt c' (some p') = (do
      let d ← getModeForProcessBatch env bt c (some p)
      ok (d.withBatches c' p')) := by
  have hh : modeOfBatch env bt c' p' = modeOfBatch env bt c p := by
    match c, c', hc with
    | none, none, _ => simp only [modeOfBatch, hp.1]
    | some b, some b', hc => exact (modeOfStateBatch_eq hc hp).symm
  simp only [getModeForProcessBatch]
  rw [hh, bind_assoc]
  congr 1
  funext choice
  rw [forceReprocess_eq hp]
  split_ifs
  · rfl
  · simp only [ok_bind, ProcessData.withBatches, hp.2]

def SameAnswer (r r' : ProcessResponse) : Prop := r.processBatchResponse = r'.processBatchResponse

lemma agree_same (x : TxM ProcessResponse) : Agree SameAnswer x x :=
  (Agree.refl x).mono fun _ _ h => congrArg _ h

variable {d : ProcessData}

lemma incrementalReq_eq (hb : SameBatch b b') (c' : Option BatchRow) (p' : BatchRow) :
    incrementalRequest env (d.withBatches c' p') b' = incrementalRequest env d b := by
  simp only [incrementalRequest, composePartialBatch, hb.batchL2Data]
  rfl

section
variable (hc : SameCurrent d.stateBatch c')
include hc

lemma agree_incrementalProcess (p' : BatchRow) : Agree SameAnswer (incrementalProcess env d)
    (incrementalProcess env (d.withBatches c' p')) := by
  rw [incrementalProcess, incrementalProcess, d.withBatches_stateBatch]
  generalize d.stateBatch = c at hc
  rcases c with _ | b
  · cases c' with
    | none => exact Agree.fail _
    | some b' => cases hc
  rcases c' with _ | b'
  · cases hc
  dsimp only
  rw [incrementalReq_eq hc]
  refine Agree.bind_same _ fun req => ?_
  refine Agree.bind_same _ fun ans => ?_
  refine Agree.bind_same _ fun _ => ?_
  refine Agree.bind_same _ fun _ => ?_
  refine Agree.bind_same _ fun _ => ?_
  exact Agree.ret rfl

/-- Nothing is done in both cases, or the batch is executed again from the same state. -/
lemma agree_nothingProcess (hp : SameStart d.previousStateBatch p') : Agree SameAnswer
    (nothingProcess env now d) (nothingProcess env now (d.withBatches c' p')) := by
  have hr : reProcess env now (d.withBatches c' p').restarted = reProcess env now d.restarted := by
    simp only [ProcessData.restarted, ProcessData.withBatches, ← hp.1, ← hp.2]
    rfl
  rw [nothingProcess, nothingProcess, hr, d.withBatches_stateBatch,
    d.withBatches_trustedBatch, d.withBatches_batchMustBeClosed]
  generalize d.stateBatch = c at hc
  match c, c', hc with
  | none, none, _ => exact Agree.fail _
  | some b, some b', hc =>
    dsimp only
    rw [← SameBatch.areEqual_eq hc, ← SameBatch.wip hc]
    split_ifs
    · exact agree_same _
    · exact Agree.fail _
    · exact Agree.bind_same _ fun _ => Agree.ret rfl
    · exact Agree.ret rfl

lemma agree_processStep (hp : SameStart d.previousStateBatch p') :
    Agree SameAnswer (processStep env now d) (processStep env now (d.withBatches c' p')) := by
  rw [processStep, processStep, d.withBatches_mode]
  cases d.mode with
  | nothing => exact agree_nothingProcess hc hp
  | full => exact agree_same _
  | incremental => exact agree_incrementalProcess hc p'
  | reprocess => exact agree_same _

lemma agree_closedChecks {r r' : ProcessResponse} (hr : SameAnswer r r') :
    Agree Eq (closedChecks env d r) (closedChecks env (d.withBatches c' p') r') := by
  have hh : checkProcessBatchResultMatchExpected (d.withBatches c' p') r'.processBatchResponse =
      checkProcessBatchResultMatchExpected d r.processBatchResponse := by
    rw [← (hr : r.processBatchResponse = r'.processBatchResponse)]
    rw [checkProcessBatchResultMatchExpected.eq_def, checkProcessBatchResultMatchExpected.eq_def,
      d.withBatches_stateBatch, d.withBatches_trustedBatch]
    generalize d.stateBatch = c at hc
    generalize r.processBatchResponse = answer
    match answer, c, c', hc with
    | some answer, _, _, _ => rfl
    | none, none, none, _ => rfl
    | none, some b, some b', hc =>
      simp only [SameBatch.stateRoot hc, SameBatch.localExitRoot hc]
  rw [closedChecks, closedChecks, hh]
  exact Agree.bind_same _ fun _ => Agree.refl _

lemma agree_executeProcessBatch (hp : SameStart d.previousStateBatch p') : Agree SameAnswer
    (executeProcessBatch env now d) (executeProcessBatch env now (d.withBatches c' p')) := by
  rw [executeProcessBatch, executeProcessBatch]
  refine (agree_processStep hc hp).bind fun r r' hr => ?_
  refine ((agree_closedChecks hc hr).when _).bind fun _ _ _ => ?_
  exact Agree.ret hr
end

/-- A batch reflects the row of a number. The hash of an open batch without a successor may differ:
it is not read. -/
def Reflects (db : Db) (k : ℕ) (b : BatchRow) : Prop :=
  ∃ row, db.batches.find? k = some row ∧ SameBatch b row ∧
    (b.accInputHash = row.accInputHash ∨ row.wip = true ∧ db.batches.find? (k + 1) = none)

/-- Nothing is read if there is no row, and a batch that reflects the row otherwise. -/
def Reads (db : Db) (k : ℕ) (value : Option BatchRow) : Prop :=
  (value = none ∧ db.batches.find? k = none) ∨ ∃ b, value = some b ∧ Reflects db k b

lemma reads_find? (db : Db) (k : ℕ) : Reads db k (db.batches.find? k) := by
  cases hr : db.batches.find? k with
  | none => exact .inl ⟨rfl, hr⟩
  | some row => exact .inr ⟨row, rfl, row, hr, SameBatch.refl row, .inl rfl⟩

lemma Reads.sameCurrent {k : ℕ} (h : Reads db k c) (h' : Reads db k c') : SameCurrent c c' := by
  rcases h with ⟨rfl, hn⟩ | ⟨b, rfl, row, ho, hs, -⟩
  · rcases h' with ⟨rfl, -⟩ | ⟨b', rfl, row', hr, -⟩
    · trivial
    · rw [hn] at hr
      cases hr
  rcases h' with ⟨rfl, hn⟩ | ⟨b', rfl, row', hr, ha, -⟩
  · rw [hn] at ho
    cases ho
  · obtain rfl : row = row' := Option.mem_unique ho hr
    exact hs.trans ha.symm

lemma Reads.eq_none {k : ℕ} (h : Reads db k c) (hn : db.batches.find? k = none) : c = none := by
  rcases h with ⟨rfl, -⟩ | ⟨b, rfl, row, hr, -⟩
  · rfl
  · rw [hn] at hr
    cases hr

/-- Every batch in the cache reflects the row of its number. -/
def Coherent (db : Db) (cache : BatchCache) : Prop :=
  cache.All fun key value => ∀ b ∈ value, Reflects db key.toNat b

variable {cache : BatchCache}

lemma reads_orFromState (hcc : Coherent db cache) {vl : Option BatchRow}
    (hv : ∀ b ∈ vl, Reflects db n.toNat b) : Reads db n.toNat (orFromState db now n vl cache).1 ∧
    Coherent db (orFromState db now n vl cache).2 := by
  cases vl with
  | some b => exact ⟨.inr ⟨b, rfl, hv b rfl⟩, hcc⟩
  | none =>
    refine ⟨reads_find? db n.toNat, hcc.set (fun b hb => ?_) now⟩
    exact ⟨b, hb, SameBatch.refl b, .inl rfl⟩

lemma reads_stateForBatch (hcc : Coherent db cache) (clock : ℕ → ℤ) (n : UInt64) :
    Reads db n.toNat (getStateForWorkingBatch cache db clock n).1.current ∧
    Reads db (n - 1).toNat (getStateForWorkingBatch cache db clock n).1.previous ∧
    Coherent db (getStateForWorkingBatch cache db clock n).2 := by
  have hj : ∀ (k : UInt64) (read : Option (Option BatchRow)), (∀ vl ∈ read, ∀ b ∈ vl, Reflects db
    k.toNat b) → ∀ b ∈ read.join, Reflects db k.toNat b := fun k read hr b hb => hr (some b)
    (Option.join_eq_some_iff.mp hb) b rfl
  obtain ⟨hcr, hcc⟩ := (hcc.deleteOutdated (clock 0)).get (clock 1) (clock 2) n
  obtain ⟨hp, hcc⟩ := hcc.get (clock 3) (clock 4) (n - 1)
  obtain ⟨hcr, hcc⟩ := reads_orFromState hcc (hj n _ hcr)
  obtain ⟨hp, hcc⟩ := reads_orFromState hcc (hj (n - 1) _ hp)
  exact ⟨hcr, hp, hcc⟩

lemma processMode_none (p : BatchRow) : getModeForProcessBatch env bt none (some p) =
    if bt.batchL2Data = [] ∧ bt.closed ∧ !env.acceptEmptyClosedBatches then
    err .emptyClosedBatch
    else ok {
    batchNumber := bt.number
    mode := .full
    oldStateRoot := p.stateRoot
    oldAccInputHash := p.accInputHash
    batchMustBeClosed := bt.closed
    trustedBatch := bt
    stateBatch := none
    previousStateBatch := p } := by
  rw [getModeForProcessBatch, modeOfBatch, ok_bind]
  simp only [forceReprocess, reduceCtorEq, or_self, and_false, if_false]

lemma fullProcess_of_openBatch_error {w w' : TxState} {e : TrustedError}
    (ho : openBatch now d.trustedBatch w = (.error e, w')) :
    fullProcess env now d w = (.error e, w') := by
  rw [fullProcess]
  split_ifs
  · exact bind_of_error ho _
  · exact bind_of_error ho _

lemma trustedBatch_of_openBatch_error {w w' : TxState} {e : TrustedError}
    (ho : openBatch now bt w = (.error e, w')) (p : BatchRow) :
    processTrustedBatch env now bt ⟨none, some p⟩ w =
    if !env.checkGlobalExitRoot bt.number bt.globalExitRoot then
    (.error .globalExitRoot, w)
    else if bt.batchL2Data = [] ∧ bt.closed ∧ !env.acceptEmptyClosedBatches then
    (.error .emptyClosedBatch, w)
    else (.error e, w') := by
  rw [processTrustedBatch, processMode_none]
  split_ifs with ht he
  · rfl
  · rfl
  change (executeProcessBatch env now _ >>= _) w = _
  refine bind_of_error (bind_of_error ?_ _) _
  exact fullProcess_of_openBatch_error ho

lemma agree_pureResult (hc : SameCurrent c c') (hp : SameStart p p') :
    Agree (fun d dt' => Picked bt c p d ∧ dt' = d.withBatches c' p')
    (pureResult (getModeForProcessBatch env bt c (some p)))
    (pureResult (getModeForProcessBatch env bt c' (some p'))) := by
  rw [processMode_eq hc hp]
  cases hm : getModeForProcessBatch env bt c (some p) with
  | ok d => exact Agree.ret ⟨processMode_ok hm, rfl⟩
  | _ => exact Agree.fail _

lemma agree_trustedBatch_of_sameStart (hc : SameCurrent c c') (hp : SameStart p p') :
    Agree (fun _ _ => True) (processTrustedBatch env now bt ⟨c, some p⟩)
    (processTrustedBatch env now bt ⟨c', some p'⟩) := by
  rw [processTrustedBatch, processTrustedBatch]
  split_ifs
  · exact Agree.fail _
  refine (agree_pureResult hc hp).bind fun d dt' hd => ?_
  obtain ⟨hpc, rfl⟩ := hd
  rw [← hpc.stateBatch] at hc
  rw [← hpc.previous] at hp
  exact (agree_executeProcessBatch hc hp).bind fun _ _ _ => Agree.ret trivial

/-- Whatever is read for a step, it does the same. -/
lemma agree_processTrustedBatch (hps : 0 < n) (hm : bt.number = n) {s s' : TrustedState}
    (hcr : Reads db n.toNat s.current) (hv : Reads db (n - 1).toNat s.previous)
    (hu : Reads db n.toNat s'.current) (hp : Reads db (n - 1).toNat s'.previous)
    (requests : List ProcessBatchRequestV2) : AgreeAt (fun _ _ => True) ⟨db, requests⟩
    (processTrustedBatch env now bt s) (processTrustedBatch env now bt s') := by
  obtain ⟨c, p⟩ := s
  obtain ⟨c', p'⟩ := s'
  have hc : SameCurrent c c' := hcr.sameCurrent hu
  have hpp := hv.sameCurrent hp
  rcases hv with ⟨rfl, hnn⟩ | ⟨p, rfl, row, hw, hsm, hh⟩
  · rcases hp with ⟨rfl, -⟩ | ⟨p', rfl, -⟩
    · rw [processTrustedBatch, processTrustedBatch]
      split_ifs
      · exact Agree.fail _ _
      · exact ⟨rfl, rfl⟩
    · exact hpp.elim
  rcases hp with ⟨rfl, -⟩ | ⟨p', rfl, row', hro, hsa, hs⟩
  · exact hpp.elim
  obtain rfl : row = row' := Option.mem_unique hw hro
  by_cases ha : p.accInputHash = p'.accInputHash
  · exact agree_trustedBatch_of_sameStart hc ⟨hpp.stateRoot, ha⟩ _
  -- the batch before it is open, so that no batch can be opened
  have ho : row.wip = true ∧ db.batches.find? ((n - 1).toNat + 1) = none := by
    rcases hh with hh | hh
    · rcases hs with hs | hs
      · exact (ha (hh.trans hs.symm)).elim
      · exact hs
    · exact hh
  rw [toNat_pred hps] at ho
  obtain rfl : c = none := hcr.eq_none ho.2
  obtain rfl : c' = none := hu.eq_none ho.2
  rcases hr : openBatch now bt ⟨db, requests⟩ with ⟨result, w'⟩
  cases result with
  | ok u =>
    obtain ⟨-, -, -, hn⟩ := rowSet_openBatch hr
    have hl := Opened.prev_closed ⟨hn.1, hn.2⟩
      (hm ▸ hw : db.batches.find? (bt.number - 1).toNat = some row)
    exact (Bool.false_ne_true (hl.symm.trans ho.1)).elim
  | error e =>
    rw [AgreeAt, trustedBatch_of_openBatch_error hr p, trustedBatch_of_openBatch_error hr p']
    exact ⟨rfl, related_refl (fun _ => trivial) _⟩

end EthdaNode.Synchronizer.TrustedSync
