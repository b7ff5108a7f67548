import EthdaNode.Synchronizer.TrustedReads
import Mathlib.Data.UInt

/-!
# The cache of the trusted synchronization

A batch in the cache has what its row has, except for the accumulated input hash: the row of a
batch gets this hash from the trusted node when the batch is closed, the cache gets it from the
executor, or none at all. As long as the two are the same, the cache makes no difference.
-/

namespace EthdaNode.Synchronizer.TrustedSync

open State UInt64
open L1InfoTree (zeroHash)
open Sequencer (Hash plainHash zeroCounters)
open Fallible
open Go Go.Outcome

variable {env : TrustedEnv} {now : ℤ} {db : Db} {bt : RpcBatch} {n : UInt64}

/-! ## The hash in the cache -/

def executedHash (env : TrustedEnv) (request : Outcome TrustedError ProcessRequest) :
    Outcome TrustedError Hash := do
  let request ← request
  let answer ← (processRequestV2 env.toStateEnv request true).mapErr .state
  ok answer.newAccInputHash

/-- The hash for the cache when all of the batch is executed; an empty batch has none. -/
def fullHash (env : TrustedEnv) (data : ProcessData) : Outcome TrustedError Hash :=
  if data.trustedBatch.batchL2Data = [] then ok zeroHash
  else executedHash env (fullRequest env data)

/-- The hash for the cache, of every step. -/
def hashForCache (env : TrustedEnv) (data : ProcessData) : Outcome TrustedError Hash :=
  match data.mode, data.stateBatch with
  | .nothing, some stateBatch =>
    if areEqualStateBatchAndTrustedBatch stateBatch data.trustedBatch true true then
      ok stateBatch.accInputHash
    else fullHash env data.restarted
  | .incremental, some stateBatch => executedHash env (incrementalRequest env data stateBatch)
  | _, _ => fullHash env data

/-- The cache gets the trusted node's hash for a closed batch; and a closed batch does not grow. -/
def keepsHash (env : TrustedEnv) (data : ProcessData) : Bool :=
  (!data.batchMustBeClosed ||
    !(hashForCache env data).any fun hash => hash ≠ data.trustedBatch.accInputHash) &&
  (data.mode ≠ .incremental || data.stateBatch.any BatchRow.wip)

/-- The hash is the one of the trusted node if the batch is closed. -/
def HashKept (data : ProcessData) (hash : Outcome TrustedError Hash) : Prop :=
  data.batchMustBeClosed = true → ∀ h, hash = ok h → h = data.trustedBatch.accInputHash

lemma keepsHash_hashKept {d : ProcessData} (h : keepsHash env d = true) :
    HashKept d (hashForCache env d) := by
  intro hm hash hh
  simp only [keepsHash, hm, Bool.and_eq_true, Bool.not_true, Bool.false_or, Bool.not_eq_true'] at h
  by_contra hne
  have ha : (hashForCache env d).any (fun hash =>
      hash ≠ d.trustedBatch.accInputHash) = true :=
    any_true_iff.mpr ⟨hash, hh, by simpa using hne⟩
  rw [h.1] at ha
  cases ha

lemma executedHash_eq {req : Outcome TrustedError ProcessRequest} {r : ProcessRequest}
    {ans : BatchResponse} (hr : req = ok r) (ha : processRequestV2 env.toStateEnv r true = ok ans) :
    executedHash env req = ok ans.newAccInputHash := by
  rw [executedHash, hr, ok_bind, ha]
  rfl

/-! ## What a step leaves -/

/-- What a step leaves for the next one: the row, and the batch for the cache. -/
structure Left (db db' : Db) (n : UInt64) (b row : BatchRow) : Prop where
  rows : RowSet db db' n row
  same : SameBatch b row
  hash : b.accInputHash = row.accInputHash ∨ row.wip = true
  previous : db.batches.find? n.toNat = none →
    ∀ row, db.batches.find? (n - 1).toNat = some row → row.wip = false

/-- The response says that the batch is put into the cache. -/
def Puts (response : ProcessResponse) (closed : Bool) (c : Option BatchRow) (b : BatchRow) : Prop :=
  response.clearCache = false ∧ nextBatch c response closed = some b

variable {d : ProcessData} {w w' : TxState} {res : ProcessResponse}

lemma sameBatch_freshRow {newRoot : Hash} (hm : d.batchMustBeClosed = d.trustedBatch.closed)
    (hn : newRoot = d.trustedBatch.stateRoot) :
    SameBatch (rpcBatchToStateBatch d.trustedBatch) (freshRow now d newRoot) := by
  have hw : (rpcBatchToStateBatch d.trustedBatch).wip = !d.batchMustBeClosed := by
    rw [hm]
    rfl
  rw [freshRow, storedRow]
  split_ifs with hc
  · rw [hc] at hw
    exact ⟨rfl, rfl, rfl, rfl, rfl, rfl, hw⟩
  rw [Bool.not_eq_true] at hc
  rw [hc] at hw
  exact ⟨rfl, rfl, rfl, hn.symm, rfl, rfl, hw⟩

lemma left_fullProcess (hd : Chosen d) (hm : d.batchMustBeClosed = d.trustedBatch.closed)
    (hk : HashKept d (fullHash env d))
    (h : fullProcess env now d w = (.ok res, w')) (c : Option BatchRow) :
    ∃ b row, Left w.db w'.db d.batchNumber b row ∧ Puts res d.batchMustBeClosed c b := by
  have hh : ∀ (hash root : Hash), fullHash env d = ok hash →
      hash = (freshRow now d root).accInputHash ∨ (freshRow now d root).wip = true := by
    intro hash root hq
    rw [freshRow, storedRow]
    split_ifs with hc
    · exact .inl (hk hc hash hq)
    · exact .inr rfl
  by_cases hem : d.trustedBatch.batchL2Data = []
  · rw [fullProcess, if_pos hem] at h
    obtain ⟨rfl, -, -, hro, ho⟩ := createEmptyBatch_ok hd h
    refine ⟨rpcBatchToStateBatch d.trustedBatch, _, ⟨hro, ?_, ?_, fun _ row hr => ?_⟩, rfl, rfl⟩
    · exact sameBatch_freshRow hm rfl
    · exact hh zeroHash _ (if_pos hem)
    · rw [hd.number] at hr
      exact ho.prev_closed hr
  obtain ⟨req, ans, -, hrq, he, rfl, -, -, -, hro, ho⟩ := fullProcess_ok hd hem h
  refine ⟨_, _, ⟨hro, ?_, ?_, fun _ row hr => ?_⟩, rfl, rfl⟩
  · have hf : SameBatch (rpcBatchToStateBatch d.trustedBatch) (freshRow now d ans.newStateRoot) :=
      sameBatch_freshRow hm he.stateRoot
    refine ⟨rfl, rfl, rfl, he.stateRoot.trans hf.stateRoot,
      he.localExitRoot.trans hf.localExitRoot, rfl, ?_⟩
    rw [← hf.wip, hm]
    rfl
  · refine hh ans.newAccInputHash _ ?_
    rw [fullHash, if_neg hem]
    exact executedHash_eq hrq he.answer
  · rw [hd.number] at hr
    exact ho.prev_closed hr

variable {row b : BatchRow}

lemma Left.afterReset (hp : 0 < n) (hl : ∀ row ∈ db.batches.rows, row.batchNumber ≤ n) {db' : Db}
    (h : Left (db.resetTrustedState (n - 1)) db' n b row) : Left db db' n b row := by
  have hpr := toNat_pred hp
  refine ⟨h.rows.afterReset hp hl, h.same, h.hash, fun _ row hr => ?_⟩
  refine h.previous (Table.find?_upTo_none (by omega)) row ?_
  rw [find?_resetTrustedState hp hl (by omega)]
  exact hr

lemma left_reProcess (hd : Chosen d) (hs : 0 < d.batchNumber)
    (he : ∀ row ∈ w.db.batches.rows, row.batchNumber ≤ d.batchNumber)
    (hm : d.batchMustBeClosed = d.trustedBatch.closed) (hk : HashKept d (fullHash env d))
    (h : reProcess env now d w = (.ok res, w')) (c : Option BatchRow) : ∃ b row, Left w.db w'.db
    d.batchNumber b row ∧ Puts res d.batchMustBeClosed c b := by
  obtain ⟨b, row, hl, hp⟩ := left_fullProcess hd hm hk (reProcess_ok h) c
  rw [← hd.number] at hl
  exact ⟨b, row, hl.afterReset hs he, hp⟩

lemma left_incrementalProcess (hd : Chosen d) {sb : BatchRow} (ht : d.stateBatch = some sb)
    (hr : w.db.batches.find? d.batchNumber.toNat = some row) (hs : SameBatch sb row)
    (ho : row.wip = true) (hk : HashKept d (executedHash env (incrementalRequest env d sb)))
    (h : incrementalProcess env d w = (.ok res, w')) (c : Option BatchRow) : ∃ b row, Left w.db
    w'.db d.batchNumber b row ∧ Puts res d.batchMustBeClosed c b := by
  obtain ⟨req, ans, hq, he, rfl, -, -, hro⟩ := incrementalProcess_ok hd ht hr ho h
  refine ⟨_, _, ⟨hro, ?_, ?_, fun hn => ?_⟩, rfl, rfl⟩
  · rw [grownRow]
    split_ifs with hm
    · exact ⟨hs.batchNumber, hs.coinbase, rfl, he.stateRoot,
        he.localExitRoot, rfl, by rw [hm]; rfl⟩
    rw [Bool.not_eq_true] at hm
    exact ⟨hs.batchNumber, hs.coinbase, rfl, rfl, he.localExitRoot, rfl,
      by rw [hm]; exact ho.symm⟩
  · rw [grownRow]
    split_ifs with hm
    · exact .inl (hk hm _ (executedHash_eq hq he.answer))
    · exact .inr ho
  · rw [hr] at hn
    cases hn

/-- A batch that is as it was served, except that it may be open. -/
lemma sameBatch_closedRow (hs : SameBatch b row)
    (he : areEqualStateBatchAndTrustedBatch b bt true true = true) :
    SameBatch { b with wip := false } (Db.closedRow (closeReceipt bt) row) := by
  simp only [areEqualStateBatchAndTrustedBatch, Bool.true_or, Bool.and_true, Bool.and_eq_true,
    decide_eq_true_eq] at he
  obtain ⟨⟨⟨⟨⟨-, -⟩, ht⟩, hr⟩, -⟩, hl2Data⟩ := he
  exact ⟨hs.batchNumber, hs.coinbase, hl2Data, hr, ht, hs.globalExitRoot, rfl⟩

variable {c : Option BatchRow}

lemma left_nothingProcess {p : BatchRow} (hp : Picked bt c p d) (hmd : d.mode = .nothing)
    (hps : 0 < d.batchNumber) (hl : ∀ row ∈ w.db.batches.rows, row.batchNumber ≤ d.batchNumber)
    (hrd : Reads w.db d.batchNumber.toNat c) (hk : HashKept d (hashForCache env d))
    (h : nothingProcess env now d w = (.ok res, w')) : ∃ b row,
    Left w.db w'.db d.batchNumber b row ∧ Puts res d.batchMustBeClosed c b := by
  have ht := hp.chosen
  obtain ⟨b, rfl, hm⟩ := hp.nothing hmd
  rcases hrd with ⟨hn, -⟩ | ⟨b', hb', row, hr, hs, hh⟩
  · cases hn
  cases hb'
  have hpr : w.db.batches.find? d.batchNumber.toNat = none →
      ∀ row, w.db.batches.find? (d.batchNumber - 1).toNat = some row → row.wip = false := by
    intro hn
    rw [hr] at hn
    cases hn
  have ha : hashForCache env d =
      if areEqualStateBatchAndTrustedBatch b d.trustedBatch true true then
      ok b.accInputHash
      else fullHash env d.restarted := by
    rw [hashForCache.eq_def, hmd, hp.stateBatch]
  rw [ha] at hk
  rw [nothingProcess, hp.stateBatch] at h
  dsimp only at h
  split_ifs at h with hd hw hc
  · -- the batch is executed again
    rw [Bool.not_eq_true'] at hd
    rw [if_neg (by simp [hd])] at hk
    have hdata' : Chosen d.restarted := ⟨ht.number, ht.closed⟩
    refine left_reProcess hdata' hps hl ?_ hk h _
    rw [hp.trustedBatch] at hd
    change d.batchMustBeClosed = d.trustedBatch.closed
    rw [hm, hw, areEqual_false_of_ignoring hd, hp.trustedBatch]
    simp only [Bool.and_true, Bool.not_false]
  · cases h
  · rw [Bool.not_eq_true', Bool.not_eq_false] at hd
    rw [if_pos hd] at hk
    obtain ⟨_, w₁, hcs, h⟩ := bind_eq_ok h
    cases h
    have ho : row.wip = true := by
      rw [← hs.wip]
      rw [hm] at hc
      simp only [Bool.and_eq_true] at hc
      exact hc.1.2
    rw [ht.number] at hr hpr ⊢
    obtain ⟨-, -, hro⟩ := rowSet_closeBatch hr ho (ht.closed hc) hcs
    exact ⟨_, _, ⟨hro, sameBatch_closedRow hs hd, .inl (hk hc _ rfl), hpr⟩, rfl, rfl⟩
  · cases h
    exact ⟨b, row, ⟨⟨hr, fun _ _ => rfl⟩, hs, hh.imp id And.left, hpr⟩, rfl, rfl⟩

lemma left_processStep {p : BatchRow} (hp : Picked bt c p d) (hps : 0 < d.batchNumber)
    (hl : ∀ row ∈ w.db.batches.rows, row.batchNumber ≤ d.batchNumber)
    (hr : Reads w.db d.batchNumber.toNat c) (he : keepsHash env d = true)
    (h : processStep env now d w = (.ok res, w')) :
    ∃ b row, Left w.db w'.db d.batchNumber b row ∧ Puts res d.batchMustBeClosed c b := by
  have hd := hp.chosen
  have hk := keepsHash_hashKept he
  have ho : d.mode ≠ .nothing → d.batchMustBeClosed = d.trustedBatch.closed := by
    intro hm
    rw [hp.others hm, hp.trustedBatch]
  rw [processStep] at h
  cases hm : d.mode with
  | nothing =>
    rw [hm] at h
    exact left_nothingProcess hp hm hps hl hr hk h
  | full =>
    rw [hm] at h
    rw [hashForCache.eq_def, hm] at hk
    exact left_fullProcess hd (ho (by simp [hm])) hk h c
  | reprocess =>
    rw [hm] at h
    rw [hashForCache.eq_def, hm] at hk
    exact left_reProcess hd hps hl (ho (by simp [hm])) hk h c
  | incremental =>
    rw [hm] at h
    obtain ⟨b, rfl⟩ := hp.incremental hm
    rw [hashForCache.eq_def, hm, hp.stateBatch] at hk
    simp only [keepsHash, hm, hp.stateBatch, Bool.and_eq_true, Option.any_some,
      ne_eq, not_true_eq_false, decide_false, Bool.false_or] at he
    rcases hr with ⟨hn, -⟩ | ⟨b', hb', row, hw, hs, -⟩
    · cases hn
    cases hb'
    exact left_incrementalProcess hd hp.stateBatch hw hs (hs.wip.symm.trans he.2) hk h _

lemma checkRoots_ok {root ler : Hash}
    (h : checkStateRootAndLER bt root ler w = (.ok (), w')) : w' = w := by
  rw [checkStateRootAndLER] at h
  split_ifs at h
  · cases h
  · cases h
    rfl

lemma closedChecks_ok (h : closedChecks env d res w = (.ok (), w')) : w' = w := by
  rw [closedChecks] at h
  obtain ⟨_, w₁, hr, h⟩ := bind_eq_ok h
  have hs : w₁ = w := by
    rw [checkProcessBatchResultMatchExpected.eq_def] at hr
    generalize res.processBatchResponse = ans at hr
    generalize d.stateBatch = c at hr
    split_ifs at hr
    · cases hr
      rfl
    cases ans with
    | some ans => exact checkRoots_ok hr
    | none =>
      cases c with
      | some b => exact checkRoots_ok hr
      | none => cases hr
  rw [checkPostClosedBatch] at h
  rw [← hs]
  split at h
  next =>
    cases h
    rfl
  next =>
    split_ifs at h
    · cases h
      rfl
    split at h
    next => cases h
    next =>
      split_ifs at h
      · cases h
      · cases h
        rfl

lemma executeProcessBatch_ok (h : executeProcessBatch env now d w = (.ok res, w')) :
    processStep env now d w = (.ok res, w') := by
  rw [executeProcessBatch] at h
  obtain ⟨res', w₁, hs, h⟩ := bind_eq_ok h
  obtain ⟨_, w₂, hc, h⟩ := bind_eq_ok h
  cases h
  rw [Fallible.when] at hc
  split_ifs at hc
  · rw [closedChecks_ok hc]
    exact hs
  · cases hc
    exact hs

lemma left_processTrustedBatch {s next : TrustedState} (hs : 0 < bt.number)
    (hl : ∀ row ∈ w.db.batches.rows, row.batchNumber ≤ bt.number)
    (hr : Reads w.db bt.number.toNat s.current) (hk : ∀ d,
    getModeForProcessBatch env bt s.current s.previous = ok d → keepsHash env d = true)
    (h : processTrustedBatch env now bt s w = (.ok next, w')) : ∃ b row,
    Left w.db w'.db bt.number b row ∧ (next = ⟨none, some b⟩ ∨ next = ⟨some b, s.previous⟩) := by
  obtain ⟨c, p⟩ := s
  rw [processTrustedBatch] at h
  split_ifs at h
  · cases h
  obtain ⟨d, w₁, hpr, hre⟩ := bind_eq_ok h
  obtain ⟨hm, rfl⟩ := pureResult_ok hpr
  obtain ⟨res, w₂, he, hrs⟩ := bind_eq_ok hre
  cases hrs
  rcases p with _ | p
  · cases hm
  have hp := processMode_ok hm
  rw [← hp.number] at hs hl hr ⊢
  obtain ⟨b, row, hf, hc, hn⟩ := left_processStep hp hs hl hr (hk d hm) (executeProcessBatch_ok he)
  refine ⟨b, row, hf, ?_⟩
  rw [updateStatus, hc, hn, if_neg Bool.false_ne_true]
  split_ifs
  · exact .inl rfl
  · exact .inr rfl

section
variable {db' : Db} {b row : BatchRow}

lemma Reflects.number {k : ℕ} (h : Reflects db k b) : b.batchNumber.toNat = k := by
  obtain ⟨row, hr, hs, -⟩ := h
  rw [hs.batchNumber]
  exact (Table.find?_eq_some_iff.mp hr).2

lemma Reflects.after (hp : 0 < n) (hl : Left db db' n b row) {k : ℕ} {b' : BatchRow}
    (h : Reflects db k b') (hk : k ≠ n.toNat) : Reflects db' k b' := by
  obtain ⟨row', hr, hs, hh⟩ := h
  refine ⟨row', (hl.rows.others k hk).trans hr, hs, ?_⟩
  rcases hh with hh | ⟨ho, hn⟩
  · exact .inl hh
  have hpr := toNat_pred hp
  by_cases hx : k + 1 = n.toNat
  · -- the batch was opened, so that the one before it is closed
    obtain rfl : k = (n - 1).toNat := by omega
    rw [hx] at hn
    have hc := hl.previous hn row' hr
    exact (Bool.false_ne_true (hc.symm.trans ho)).elim
  · exact .inr ⟨ho, (hl.rows.others _ hx).trans hn⟩

lemma Left.reflects (he : ∀ row ∈ db.batches.rows, row.batchNumber ≤ n)
    (hl : Left db db' n b row) : Reflects db' n.toNat b := by
  refine ⟨row, hl.rows.self, hl.same, hl.hash.imp id fun ho => ⟨ho, ?_⟩⟩
  rw [hl.rows.others _ (by omega)]
  refine Table.find?_eq_none_iff.mpr fun row hr hk => ?_
  have hr : row.key ≤ n.toNat := le_iff_toNat_le.mp (he row hr)
  omega

variable {cache : BatchCache}

lemma coherent_setBatch (hc : Coherent db cache) {vl : Option BatchRow}
    (hv : ∀ b ∈ vl, Reflects db b.batchNumber.toNat b) : Coherent db (setBatch now vl cache) := by
  rcases vl with _ | b
  · exact hc
  refine hc.set (fun b' hb' => ?_) now
  cases hb'
  exact hv b rfl

lemma Left.coherent_setBatch (hp : 0 < n) (he : ∀ row ∈ db.batches.rows, row.batchNumber ≤ n)
    (hl : Left db db' n b row) (hc : Coherent db cache) :
    Coherent db' (setBatch now (some b) cache) := by
  have hr := hl.reflects he
  have hm : b.batchNumber = n := UInt64.toNat_inj.mp hr.number
  rw [setBatch, hm]
  refine TimedCache.All.replace (hc.mono fun key vl h hn b' hb' => ?_) (fun b' hb' => ?_) now
  · exact (h b' hb').after hp hl fun hk => hn (UInt64.toNat_inj.mp hk)
  · cases hb'
    exact hr
end

/-! ## Runs -/

structure Inv (w : SyncState) : Prop where
  coherent : Coherent w.db w.cache
  todo : ∀ n last, w.todo = some (n, last) → 0 < n ∧ n ≤ last ∧ last ≤ maxBigint ∧
    ∀ row ∈ w.db.batches.rows, row.batchNumber ≤ n

structure SameStored (w w' : SyncState) : Prop where
  db : w.db = w'.db
  requests : w.requests = w'.requests
  todo : w.todo = w'.todo

/-- The hash is kept in the step that the event leads to. -/
def keeps (env : TrustedEnv) (w : SyncState) (event : Event) : Bool :=
  match event, w.todo with
  | .iteration it, some (n, _) =>
    it.batch.all fun batch =>
      let status := (getStateForWorkingBatch w.cache w.db it.clock n).1
      batch.number ≠ n ||
        !(getModeForProcessBatch env batch status.current status.previous).any fun data =>
          !keepsHash env data
  | _, _ => true

/-- The hash is kept in all steps of a run with the cache. -/
def allKeep (env : TrustedEnv) (w : SyncState) : List Event → Bool
  | [] => true
  | event :: events => keeps env w event && allKeep env (step env true w event) events

variable {w w' : SyncState} {it : Iteration} {last : UInt64}

/-- No row is newer than the batch that the synchronization starts with. -/
lemma le_of_getLastBatchNum {latest : UInt64} (h : db.getLastBatchNumber = ok latest)
    (hr : row ∈ db.batches.rows) : row.batchNumber ≤ latest := by
  obtain ⟨last, hs, h⟩ := ok_of_bind h
  cases h
  have hl := (Table.last?_eq_some_iff.mp (Db.required_ok hs)).2 row hr
  exact le_iff_toNat_le.mpr hl

lemma max_bounds (a b : UInt64) : a ≤ max a b ∧ b ≤ max a b ∧ ∀ c, a ≤ c → b ≤ c → max a b ≤ c := by
  change a ≤ (if a ≤ b then b else a) ∧ b ≤ (if a ≤ b then b else a) ∧
    ∀ c, a ≤ c → b ≤ c → (if a ≤ b then b else a) ≤ c
  split_ifs with ha
  · exact ⟨ha, UInt64.le_refl b, fun c _ hb => hb⟩
  · exact ⟨UInt64.le_refl a, UInt64.le_of_lt (UInt64.not_le.mp ha), fun c hc _ => hc⟩

lemma inv_startSync (hi : Inv w) (lastSeen maximum : UInt64) :
    Inv (startSync w lastSeen maximum) := by
  rw [startSync]
  cases hlt : w.db.getLastBatchNumber with
  | ok latest =>
    dsimp only
    have hf : latest ≤ if latest = 0 then 1 else latest := by
      split_ifs with hz
      · rw [hz]
        decide
      · exact UInt64.le_refl latest
    generalize (if latest = 0 then 1 else latest) = first at hf
    split_ifs with hd
    · exact hi
    refine ⟨hi.coherent, fun n last h => ?_⟩
    cases h
    simp only [not_or, UInt64.not_lt] at hd
    obtain ⟨hl, hg, hm⟩ := max_bounds first firstTrustedBatchNumber
    have ht : 0 < firstTrustedBatchNumber := by decide
    refine ⟨UInt64.lt_of_lt_of_le ht hg, hm _ hd.2 hd.1,
      UInt64.le_trans Std.min_le_left Std.min_le_right, fun row hr => ?_⟩
    have hr := le_of_getLastBatchNum hlt hr
    exact UInt64.le_trans (UInt64.le_trans hr hf) hl
  | _ => exact hi

lemma sameStored_startSync (h : SameStored w w') (ls maximum : UInt64) :
    SameStored (startSync w ls maximum) (startSync w' ls maximum) := by
  obtain ⟨db, cache, requests, todo⟩ := w
  obtain ⟨db', stale', requests', td'⟩ := w'
  obtain ⟨rfl, rfl, rfl⟩ := h
  rw [startSync, startSync]
  dsimp only
  cases db.getLastBatchNumber with
  | ok latest =>
    dsimp only
    generalize (if latest = 0 then 1 else latest) = first
    split_ifs
    · exact ⟨rfl, rfl, rfl⟩
    · exact ⟨rfl, rfl, rfl⟩
  | _ => exact ⟨rfl, rfl, rfl⟩

/-- A round does the same with any cache that reflects the database. -/
lemma sameStored_syncBatch (hps : 0 < n) (hcc : Coherent w.db w.cache)
    (ha : Coherent w'.db w'.cache) (h : SameStored w w') :
    SameStored (syncBatch env it w n last) (syncBatch env it w' n last) := by
  obtain ⟨db, cache, requests, todo⟩ := w
  obtain ⟨db', stale', requests', td'⟩ := w'
  obtain ⟨rfl, rfl, rfl⟩ := h
  rw [syncBatch, syncBatch]
  rcases it.batch with _ | bt
  · exact ⟨rfl, rfl, rfl⟩
  dsimp only
  by_cases hn : bt.number = n
  · rw [if_neg (not_not.mpr hn), if_neg (not_not.mpr hn)]
    obtain ⟨hc, hp, -⟩ := reads_stateForBatch hcc it.clock n
    obtain ⟨hcr, hpr, -⟩ := reads_stateForBatch ha it.clock n
    dsimp only at hc hp hcr hpr
    generalize getStateForWorkingBatch cache db it.clock n = read at *
    generalize getStateForWorkingBatch stale' db it.clock n = read' at *
    have hg : AgreeAt (fun _ _ => True) ⟨db, requests⟩ (processTrustedBatch env it.now bt read.1)
      (processTrustedBatch env it.now bt read'.1) := agree_processTrustedBatch hps hn hc hp hcr hpr
      requests
    obtain ⟨hs, hr⟩ := hg
    rcases hx : processTrustedBatch env it.now bt read.1 ⟨db, requests⟩ with ⟨r, tx⟩
    rcases hy : processTrustedBatch env it.now bt read'.1 ⟨db, requests⟩ with ⟨r', tx'⟩
    rw [hx, hy] at hs hr
    obtain rfl : tx = tx' := hs
    rcases r with e | next
    · cases r' with
      | error e' => exact ⟨rfl, rfl, rfl⟩
      | ok next' => exact hr.elim
    rcases r' with e' | next'
    · exact hr.elim
    dsimp only
    split_ifs
    · exact ⟨rfl, rfl, rfl⟩
    · exact ⟨rfl, rfl, rfl⟩
  · rw [if_pos hn, if_pos hn]
    exact ⟨rfl, rfl, rfl⟩

lemma inv_failedRound (cache : BatchCache) (requests : List ProcessBatchRequestV2) :
    Inv (failedRound w cache requests) :=
  ⟨TimedCache.All.clear _, nofun⟩

/-- A round that succeeds leaves a cache that reflects the database. -/
lemma inv_finishedRound {s next : TrustedState} {tx : TxState} {cache : BatchCache} (hps : 0 < n)
    (hls : n ≤ last) (hm : last ≤ maxBigint) (he : ∀ row ∈ db.batches.rows, row.batchNumber ≤ n)
    (hc : Coherent db cache) (hpr : Reads db (n - 1).toNat s.previous) (hl : Left db tx.db n b row)
    (hn : next = ⟨none, some b⟩ ∨ next = ⟨some b, s.previous⟩) : Inv
    (finishedRound it bt n last cache next tx) := by
  have hd := toNat_pred hps
  constructor
  · rcases hn with rfl | rfl
    · exact hl.coherent_setBatch hps he hc
    refine coherent_setBatch (hl.coherent_setBatch hps he hc) fun p hp => ?_
    dsimp only at hp
    rcases hpr with ⟨hnn, -⟩ | ⟨p', hp', hr⟩
    · rw [hnn] at hp
      cases hp
    rw [hp'] at hp
    cases hp
    rw [hr.number]
    exact hr.after hps hl (by omega)
  intro m last' ht
  rw [finishedRound] at ht
  dsimp only at ht
  split_ifs at ht with hmr
  cases ht
  have hs : (n + 1).toNat = n.toNat + 1 := by
    have hb : n.toNat ≤ maxBigint.toNat :=  le_iff_toNat_le.mp (UInt64.le_trans hls hm)
    have hv : maxBigint.toNat = 2 ^ 63 - 1 := by decide
    rw [UInt64.toNat_add, UInt64.toNat_one, Nat.mod_eq_of_lt (by omega)]
  refine ⟨UInt64.lt_iff_toNat_lt.mpr ?_, hmr.2, hm, fun row' hw => ?_⟩
  · rw [hs]
    exact Nat.succ_pos _
  rw [le_iff_toNat_le, hs]
  by_cases hk : row'.batchNumber.toNat = n.toNat
  · omega
  have hf : db.batches.find? row'.batchNumber.toNat = some row' := by
    rw [← hl.rows.others _ hk]
    exact Table.find?_mem hw
  have ho := le_iff_toNat_le.mp (he row' (Table.find?_eq_some_iff.mp hf).1)
  omega

lemma keeps_iteration (ht : w.todo = some (n, last)) (hb : it.batch = some bt)
    (hn : bt.number = n) (h : keeps env w (.iteration it) = true)
    (hd : getModeForProcessBatch env bt
    (getStateForWorkingBatch w.cache w.db it.clock n).1.current
    (getStateForWorkingBatch w.cache w.db it.clock n).1.previous = ok d) :
    keepsHash env d = true := by
  rw [keeps.eq_def] at h
  simp only [ht, hb, hn, Option.all_some, hd, Outcome.any, ne_eq,
    not_true_eq_false, decide_false, Bool.false_or, Bool.not_not] at h
  exact h

lemma inv_syncBatch (hi : Inv w) (ht : w.todo = some (n, last))
    (hk : keeps env w (.iteration it) = true) : Inv (syncBatch env it w n last) := by
  obtain ⟨hp, hs, hm, hl⟩ := hi.todo n last ht
  rw [syncBatch]
  rcases hb : it.batch with _ | bt
  · exact ⟨hi.coherent, nofun⟩
  dsimp only
  by_cases hn : bt.number = n
  · rw [if_neg (not_not.mpr hn)]
    obtain ⟨hc, hr, hcc⟩ := reads_stateForBatch hi.coherent it.clock n
    have he : ∀ d, getModeForProcessBatch env bt (getStateForWorkingBatch w.cache w.db it.clock
      n).1.current (getStateForWorkingBatch w.cache w.db it.clock n).1.previous = ok d → keepsHash
      env d = true := fun d => keeps_iteration ht hb hn hk
    generalize getStateForWorkingBatch w.cache w.db it.clock n = read at *
    rcases hpc : processTrustedBatch env it.now bt read.1 ⟨w.db, w.requests⟩ with
      ⟨r, tx⟩
    rcases r with e | next
    · exact inv_failedRound _ _
    dsimp only
    split_ifs
    · rw [← hn] at hp hs hl hc hr
      obtain ⟨b, row, hf, hx⟩ := left_processTrustedBatch hp hl hc he hpc
      rw [← hn]
      exact inv_finishedRound hp hs hm hl hcc hr hf hx
    · exact inv_failedRound _ _
  · rw [if_pos hn]
    exact ⟨hi.coherent, nofun⟩

lemma step_same (hi : Inv w) (h : SameStored w w') {ev : Event} (hk : keeps env w ev = true) :
    Inv (step env true w ev) ∧ SameStored (step env true w ev) (step env false w' ev) := by
  rcases ev with ⟨ls, maximum⟩ | it
  · cases ht : w.todo with
    | none =>
      have htodo' : w'.todo = none := h.todo.symm.trans ht
      simp only [step, ht, htodo']
      exact ⟨inv_startSync hi ls maximum, sameStored_startSync h ls maximum⟩
    | some todo =>
      have htodo' : w'.todo = some todo := h.todo.symm.trans ht
      simp only [step, ht, htodo']
      exact ⟨hi, h⟩
  rcases ht : w.todo with _ | todo
  · have htodo' : w'.todo = none := h.todo.symm.trans ht
    simp only [step, ht, htodo']
    exact ⟨hi, h⟩
  have htodo' : w'.todo = some todo := h.todo.symm.trans ht
  obtain ⟨n, last⟩ := todo
  simp only [step, ht, htodo', if_true, Bool.false_eq_true, if_false]
  refine ⟨inv_syncBatch hi ht hk, ?_⟩
  exact sameStored_syncBatch (hi.todo n last ht).1 hi.coherent
    (TimedCache.All.clear _) ⟨h.db, h.requests, ht⟩

lemma run_same {es : List Event} (hi : Inv w) (h : SameStored w w') (hk : allKeep env w es = true) :
    SameStored (run env true w es) (run env false w' es) := by
  induction es generalizing w w' with
  | nil => exact h
  | cons ev es ih =>
    rw [allKeep, Bool.and_eq_true] at hk
    obtain ⟨hi, h⟩ := step_same hi h hk.1
    exact ih hi h hk.2

lemma allKeep_of_append {bef after : List Event}
    (h : allKeep env w (bef ++ after) = true) : allKeep env w bef = true := by
  induction bef generalizing w with
  | nil => rfl
  | cons ev bef ih =>
    rw [List.cons_append, allKeep, Bool.and_eq_true] at h
    rw [allKeep, Bool.and_eq_true]
    exact ⟨h.1, ih h.2⟩

def started (db : Db) (timeOfLiveItems : ℤ) : SyncState where
  db
  cache := TimedCache.empty timeOfLiveItems
  requests := []
  todo := none

/-- An executor whose accumulated hash depends on the old one and on the data. -/
def countingEnv : TrustedEnv where
  executor := fun request => some
    { newStateRoot := plainHash 1
      newAccInputHash :=
        plainHash (request.oldAccInputHash.bytes.sum + UInt8.ofNat request.batchL2Data.length)
      newLocalExitRoot := zeroHash
      usedZkCounters := zeroCounters
      blockResponses := []
      addressesParse := true
      flushId := 0
      storedFlushId := 0
      proverId := ""
      error := .noError
      errorRom := .noError }
  decodeTx := some
  getForkIDByBatchNumber := fun _ => 7
  chainID := 0
  currentL1InfoRoot := zeroHash
  l2BlockHash := fun _ _ _ => zeroHash
  now := 0
  geth := .reference
  getL1InfoTreeData := fun _ => ok ([], zeroHash, zeroHash)
  hashByteArray := fun data => plainHash data.sum
  checkGlobalExitRoot := fun _ _ => true
  acceptEmptyClosedBatches := false
  reprocessFullBatchOnClose := false
  checkLastL2BlockHashOnCloseBatch := false

def firstBatchDb : Db where
  blocks := .empty
  batches := ⟨[{
    batchNumber := 1
    coinbase := cropAddress []
    batchL2Data := []
    stateRoot := zeroHash
    localExitRoot := zeroHash
    accInputHash := zeroHash
    timestamp := 0
    globalExitRoot := zeroHash
    forcedBatchNum := none
    resources := ⟨zeroCounters, 0⟩
    highReservedZKCounters := zeroCounters
    wip := false }], List.pairwise_singleton _ _⟩
  l2Blocks := .empty
  virtualBatches := .empty
  sequences := .empty
  forcedBatches := .empty

def servedBatch (number : UInt64) (blocks : ℕ) (accInputHash : Hash) (closed : Bool) :
    RpcBatch where
  number
  coinbase := cropAddress []
  stateRoot := plainHash 1
  globalExitRoot := zeroHash
  localExitRoot := zeroHash
  accInputHash
  timestamp := 0
  forcedBatchNumber := none
  closed
  batchL2Data := (List.replicate blocks [11, 0, 0, 0, 0, 0, 0, 0, 0]).flatten
  lastBlock := none

def roundOf (batch : RpcBatch) : Event := .iteration ⟨some batch, fun _ => 0, 0, true, true⟩

/-- Batch 2 has one block, then two and is closed; then comes batch 3. -/
def grownEvents : List Event :=
  [.poll 2 maxBigint, roundOf (servedBatch 2 1 zeroHash false),
    .poll 3 maxBigint, roundOf (servedBatch 2 2 (plainHash 18) true),
    roundOf (servedBatch 3 1 zeroHash false)]

/-- Batch 2 has two blocks and is closed; then comes batch 3. -/
def closedEvents : List Event :=
  [.poll 3 maxBigint, roundOf (servedBatch 2 2 (plainHash 18) true),
    roundOf (servedBatch 3 1 zeroHash false)]

end EthdaNode.Synchronizer.TrustedSync
