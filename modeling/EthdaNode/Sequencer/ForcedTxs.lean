import EthdaNode.Sequencer.Worker

/-!
# The worker after a forced batch

What `handleProcessForcedBatchResponse` does to the worker. The function that updates the
worker after a transaction returns early for a forced one, so the queues of the touched
addresses keep their nonces, balances and transactions.
-/

namespace EthdaNode.Sequencer

open Go Go.Outcome State

namespace Worker

variable (touched : GoMap Address InfoReadWrite)

/-- `updateWorkerAfterSuccessfulProcessing`: the worker, and the transactions reported to the pool
as failed. -/
def updateWorkerAfterSuccessfulProcessing (w : Worker) (tx : Hash × Address) (isForced : Bool) :
    Outcome WorkerError (Worker × List TxTracker) :=
  if isForced then .ok (w.deleteForcedTx tx.1 tx.2, [])
  else do
    let w ← w.moveTxPendingToStore tx.1 tx.2
    w.updateAfterSingleSuccessfulTxExecution tx.2 touched

/-- `addForcedTxToWorker`, for the transactions whose sender is found. -/
def addForcedTxToWorker (w : Worker) (txs : List (Hash × Address)) : Worker :=
  txs.foldl (fun w tx => w.addForcedTx tx.1 tx.2) w

def handleForcedTx (s : Worker × List TxTracker) (tx : Hash × Address) :
    Outcome WorkerError (Worker × List TxTracker) := do
  let r ← updateWorkerAfterSuccessfulProcessing touched s.1 tx true
  .ok (r.1, s.2 ++ r.2)

def handleProcessForcedBatchResponse (w : Worker) (txs : List (Hash × Address)) :
    Outcome WorkerError (Worker × List TxTracker) :=
  txs.foldlM (handleForcedTx touched) (w.addForcedTxToWorker txs, [])

def UpToDate (info : InfoReadWrite) (q : AddrQueue) : Prop :=
  (∀ nonce, info.nonce = some nonce → q.currentNonce = nonce) ∧
    ∀ balance, info.balance = some balance → q.currentBalance = balance

def Below (info : InfoReadWrite) (t : TxTracker) : Prop :=
  ∃ nonce, info.nonce = some nonce ∧ t.nonce < nonce

/-- The queues of the touched addresses are up to date, and transactions below the nonce of their
sender are out of its queue and reported. -/
def Refreshed (w : Worker) (txs : List (Hash × Address)) (r : Worker × List TxTracker) : Prop :=
  ∀ addr info q q', touched.lookup addr = some info → w.pool.lookup addr = some q →
    r.1.pool.lookup addr = some q' → UpToDate info q' ∧ (addr ∈ txs.map Prod.snd →
      ∀ t, q.Holds t → Below info t → ¬q'.Holds t ∧ t.hash ∈ r.2.map TxTracker.hash)

def unforced (q : AddrQueue) : AddrQueue := { q with forcedTxs := ∅ }

def unforcedOf (w : Worker) (addr : Address) : Option AddrQueue := (w.pool.lookup addr).map unforced

lemma unforcedOf_modifyQueue (w : Worker) (addr : Address) {f : AddrQueue → AddrQueue}
    (hf : ∀ q, unforced (f q) = unforced q) : (w.modifyQueue addr f).unforcedOf = w.unforcedOf := by
  funext a
  unfold unforcedOf modifyQueue
  rcases hl : w.pool.lookup addr with _ | q
  · rfl
  simp only [GoMap.lookup_insert_eq]
  split
  · next ha => rw [ha, hl, Option.map_some, Option.map_some, hf]
  · rfl

lemma unforcedOf_addForcedTxToWorker (w : Worker) (txs : List (Hash × Address)) :
    (w.addForcedTxToWorker txs).unforcedOf = w.unforcedOf := by
  induction txs generalizing w with
  | nil => rfl
  | cons tx txs ih => exact (ih _).trans (unforcedOf_modifyQueue w tx.2 fun _ => rfl)

lemma foldlM_handleForcedTx (w : Worker) (txs : List (Hash × Address)) : ∃ w', txs.foldlM
    (handleForcedTx touched) (w, []) = .ok (w', []) ∧ w'.unforcedOf = w.unforcedOf := by
  induction txs generalizing w with
  | nil => exact ⟨w, rfl, rfl⟩
  | cons tx txs ih =>
    obtain ⟨w', hf, hs⟩ := ih (w.deleteForcedTx tx.1 tx.2)
    exact ⟨w', hf, hs.trans (unforcedOf_modifyQueue w tx.2 fun _ => rfl)⟩

/-- The forced batch is handled, and the worker is up to date if and only if it was so
before. -/
theorem refreshed_iff (w : Worker) (txs : List (Hash × Address)) :
    ∃ r, handleProcessForcedBatchResponse touched w txs = .ok r ∧
    (Refreshed touched w txs r ↔ ∀ addr info q, touched.lookup addr = some info →
    w.pool.lookup addr = some q → UpToDate info q ∧
    (addr ∈ txs.map Prod.snd → ∀ t, q.Holds t → ¬Below info t)) := by
  obtain ⟨w', hf, hs⟩ := foldlM_handleForcedTx touched (w.addForcedTxToWorker txs) txs
  rw [unforcedOf_addForcedTxToWorker] at hs
  have hqu : ∀ addr q, w.pool.lookup addr = some q →
      ∃ q', w'.pool.lookup addr = some q' ∧ unforced q' = unforced q := by
    intro addr q hq
    refine Option.map_eq_some_iff.mp ((congrFun hs addr).trans ?_)
    rw [unforcedOf, hq, Option.map_some]
  refine ⟨_, hf, fun h addr info q hi hq => ?_, fun h addr info q q' hi hq hq' => ?_⟩
  · obtain ⟨q', hq', heq⟩ := hqu addr q hq
    obtain ⟨hup, hb⟩ := h addr info q q' hi hq hq'
    refine ⟨(congrArg (UpToDate info) heq).mp hup, fun hm t ht hl => ?_⟩
    exact (hb hm t ht hl).1 ((congrArg (AddrQueue.Holds · t) heq).mpr ht)
  obtain ⟨q'', hq'', heq⟩ := hqu addr q hq
  cases hq'.symm.trans hq''
  obtain ⟨hup, hn⟩ := h addr info q hi hq
  exact ⟨(congrArg (UpToDate info) heq).mpr hup, fun hm t ht hl => absurd hl (hn hm t ht)⟩

/-- A forced transaction takes the nonce of its sender from 0 to 1; the queue of the
sender keeps the nonce 0. -/
theorem forced_nonce_not_refreshed : ∃ (touched : GoMap Address InfoReadWrite) (w : Worker)
    (txs : List (Hash × Address)) (r : Worker × List TxTracker),
    handleProcessForcedBatchResponse touched w txs = .ok r ∧ ¬Refreshed touched w txs r := by
  let sender := cropAddress []
  let w : Worker := { newWorker ⟨0, 0, 0, 0, 0, 0, 0, 0, 0⟩ with
    pool := (∅ : GoMap Address AddrQueue).insert sender (newAddrQueue sender 0 10) }
  refine ⟨(∅ : GoMap Address InfoReadWrite).insert sender ⟨some 1, none⟩, w,
    [(plainHash 1, sender)], _, rfl, fun h => ?_⟩
  have hn := (h sender ⟨some 1, none⟩ _ _ rfl rfl rfl).1.1 1 rfl
  exact absurd hn (by decide)

end Worker

end EthdaNode.Sequencer
