import EthdaNode.Sequencer.WorkerConsistency

/-!
# The runs of a worker

A run is a sequence of calls of the worker, each of them without interruption,
that starts with a new worker. The trackers that are added come from
`newTxTracker`, and no two transactions of a run have the same hash: `txOf`
names the transaction of a hash.
-/

namespace EthdaNode.Sequencer

open Go Go.Outcome State

/-! ## The trackers of a run -/

/-- The tracker was made by `newTxTracker` of the transaction of its hash. -/
def TxTracker.Genuine (geth : GoEthereum) (signer : Signer) (txOf : Hash → LegacyTx)
    (t : TxTracker) : Prop :=
  ∃ used reserved ip ptr now,
    newTxTracker geth signer (txOf t.hash) used reserved ip ptr now = .ok t

lemma newTxTracker_ok {geth : GoEthereum} {signer : Signer} {tx : LegacyTx} {used reserved :
    ZKCounters} {ip : String} {ptr : ℕ} {now : ℤ} {t : TxTracker}
    (h : newTxTracker geth signer tx used reserved ip ptr now = .ok t) :
    signer.sender tx = .ok t.fromAddr ∧ t.nonce = tx.nonce ∧ ∀ used' reserve',
    newTxTracker geth signer tx used' reserve' ip ptr now =
    .ok (t.updateZKCounters used' reserve') := by
  rw [newTxTracker, bind_ok_iff] at h
  obtain ⟨addr, hs, h⟩ := h
  rw [bind_ok_iff] at h
  obtain ⟨rt, hr, h⟩ := h
  rw [← ok.inj h]
  refine ⟨ofExcept_ok_iff.mp hs, rfl, ?_⟩
  intro used' reserve'
  rw [newTxTracker, hs, ok_bind, hr, ok_bind]
  rfl

lemma identifies_genuine (geth : GoEthereum) (signer : Signer) (txOf : Hash → LegacyTx) : Identifies
    (TxTracker.Genuine geth signer txOf) where
  from_eq s t hs ht hhash := by
    obtain ⟨_, _, _, _, _, hs⟩ := hs
    obtain ⟨_, _, _, _, _, ht⟩ := ht
    have hn := (newTxTracker_ok hs).1
    rw [hhash, (newTxTracker_ok ht).1] at hn
    exact (Except.ok.inj hn).symm
  nonce_eq s t hs ht hhash := by
    obtain ⟨_, _, _, _, _, hs⟩ := hs
    obtain ⟨_, _, _, _, _, ht⟩ := ht
    rw [(newTxTracker_ok hs).2.1, (newTxTracker_ok ht).2.1, hhash]
  counters t used reserved ht := by
    obtain ⟨_, _, ip, ptr, now, ht⟩ := ht
    exact ⟨used, reserved, ip, ptr, now, (newTxTracker_ok ht).2.2 used reserved⟩

namespace Worker

inductive Call where
  | updateAfterSingleSuccessfulTxExecution (fromAddr : Address)
      (touchedAddresses : GoMap Address InfoReadWrite)
  | moveTxToNotReady (txHash : Hash) (fromAddr : Address)
      (actualNonce : Option UInt64) (actualBalance : Option ℤ)
  | deleteTx (txHash : Hash) (addr : Address)
  | addForcedTx (txHash : Hash) (addr : Address)
  | deleteForcedTx (txHash : Hash) (addr : Address)
  | updateTxZKCounters (txHash : Hash) (addr : Address)
      (usedZKCounters reservedZKCounters : ZKCounters)
  | moveTxPendingToStore (txHash : Hash) (addr : Address)
  | deleteTxPendingToStore (txHash : Hash) (addr : Address)
  | restoreTxsPendingToStore (visit : RangeOrder) (state : ℕ → StateInterface)
  | getBestFittingTx (remainingResources : BatchResources)
      (highReservedCounters : ZKCounters) (nGoRoutines : ℕ) (schedule : List ℕ)
  | expireTransactions (maxTime : ℤ) (now : TxTracker → ℤ)

inductive Result where
  | done
  | txs (txs : List TxTracker)
  | restored (droppedTxs replacedTxs : List TxTracker)
  | fitting (tx : Except WorkerError TxTracker)

def call (validIP : String → Bool) (w : Worker) : Call → Outcome WorkerError (Worker × Result)
  | .updateAfterSingleSuccessfulTxExecution fromAddr touchedAddresses => do
      let r ← w.updateAfterSingleSuccessfulTxExecution fromAddr touchedAddresses
      .ok (r.1, .txs r.2)
  | .moveTxToNotReady txHash fromAddr actualNonce actualBalance => do
      let r ← w.moveTxToNotReady txHash fromAddr actualNonce actualBalance
      .ok (r.1, .txs r.2)
  | .deleteTx txHash addr => do
      let w ← w.deleteTx txHash addr
      .ok (w, .done)
  | .addForcedTx txHash addr => .ok (w.addForcedTx txHash addr, .done)
  | .deleteForcedTx txHash addr => .ok (w.deleteForcedTx txHash addr, .done)
  | .updateTxZKCounters txHash addr used reserved =>
    .ok (w.updateTxZKCounters txHash addr used reserved, .done)
  | .moveTxPendingToStore txHash addr => do
      let w ← w.moveTxPendingToStore txHash addr
      .ok (w, .done)
  | .deleteTxPendingToStore txHash addr => do
      let w ← w.deleteTxPendingToStore txHash addr
      .ok (w, .done)
  | .restoreTxsPendingToStore visit state => do
      let r ← w.restoreTxsPendingToStore validIP visit state
      .ok (r.1, .restored r.2.1 r.2.2)
  | .getBestFittingTx remaining high nGoRoutines schedule => do
      let r ← w.getBestFittingTx remaining high nGoRoutines schedule
      .ok (r.1, .fitting r.2)
  | .expireTransactions maxTime now => do
      let r ← w.expireTransactions maxTime now
      .ok (r.1, .txs r.2)

/-- The transaction in process that a call gives up before anything else. -/
def Call.reset (w : Worker) : Call → Worker
  | .moveTxToNotReady txHash _ _ _ => w.resetWipTx txHash
  | .deleteTx txHash _ => w.resetWipTx txHash
  | _ => w

/-- The calls that neither clear nor set the transaction in process otherwise. -/
def Call.KeepsWip : Call → Prop
  | .restoreTxsPendingToStore _ _ => False
  | .getBestFittingTx _ _ _ _ => False
  | _ => True

variable {G : TxTracker → Prop} {validIP : String → Bool} {w : Worker}

lemma KeepsTo.of_eq {α : Type} {x : Outcome WorkerError α} {worker : α → Worker}
    (h : KeepsTo G w x worker) {r : α} (hr : x = .ok r) :
    (worker r).Consistent G ∧ SameWip w (worker r) := by
  obtain ⟨r', hx, hk⟩ := h
  rwa [ok.inj (hr.symm.trans hx)]

variable {w' : Worker}

lemma KeepsTo.of_call {α : Type} {x : Outcome WorkerError α} {worker : α → Worker} {res :
    α → Result} {r : Result} (h : KeepsTo G w x worker) (hc :
    (x >>= fun s => .ok (worker s, res s)) = .ok (w', r)) : w'.Consistent G ∧ SameWip w w' := by
  obtain ⟨s, hs, he⟩ := ok_of_bind hc
  cases he
  exact h.of_eq hs

lemma call_keeps (hG : Identifies G) (h : w.Consistent G) {c : Call} {r : Result}
    (hc : w.call validIP c = .ok (w', r)) :
    w'.Consistent G ∧ (c.KeepsWip → SameWip (c.reset w) w') := by
  have hk : w'.Consistent G ∧ SameWip (c.reset w) w' →
      w'.Consistent G ∧ (c.KeepsWip → SameWip (c.reset w) w') := And.imp_right fun hw _ => hw
  cases c with
  | updateAfterSingleSuccessfulTxExecution fa ta =>
    exact hk ((updateAfterTx_keepsTo hG h fa ta).of_call hc)
  | moveTxToNotReady th fa nonce balance =>
    exact hk ((moveTxToNotReady_keepsTo hG h th fa nonce balance).of_call hc)
  | deleteTx th addr =>
    exact hk ((deleteTx_keepsTo hG h th addr).of_call hc)
  | addForcedTx th addr =>
    cases hc
    exact hk (cons_modifyQueue hG h addr (keepsTxs_addForcedTx th))
  | deleteForcedTx th addr =>
    cases hc
    exact hk (cons_modifyQueue hG h addr (keepsTxs_deleteForcedTx th))
  | updateTxZKCounters th addr used reserved =>
    cases hc
    have hr := changes_counters w th addr used reserved
    exact ⟨consistent_mapTrackers hG h hr, fun _ => sameWip_mapTrackers w hr⟩
  | moveTxPendingToStore th addr =>
    exact hk ((moveTxPendingToStore_keepsTo hG h th addr).of_call hc)
  | deleteTxPendingToStore th addr =>
    obtain ⟨s, hs, he⟩ := ok_of_bind hc
    cases he
    exact hk (consistent_deletePendingTx hG h hs)
  | restoreTxsPendingToStore visits state =>
    obtain ⟨s, hs, he⟩ := ok_of_bind hc
    cases he
    obtain ⟨s', hs', hn⟩ := restoreTxs_spec hG validIP h visits state
    rw [ok.inj (hs.symm.trans hs')]
    exact ⟨hn, fun hw => hw.elim⟩
  | getBestFittingTx remaining high n sc =>
    obtain ⟨s, hs, he⟩ := ok_of_bind hc
    cases he
    exact ⟨consistent_bestFit h hs, fun hw => hw.elim⟩
  | expireTransactions mt now =>
    exact hk ((expire_keepsTo hG h mt now).of_call hc)

/-! ## Runs -/

def Reorders (pool pool' : GoMap Address AddrQueue) : Prop :=
  ∀ a, (pool.lookup a = none ∧ pool'.lookup a = none) ∨ ∃ q notReadyTxs, pool.lookup a = some q ∧
      q.notReadyTxs.entries.Perm notReadyTxs.entries ∧
      pool'.lookup a = some { q with notReadyTxs := notReadyTxs }

/-- A step of a worker: a call, or another order in which the maps are visited
from now on. -/
inductive Step (G : TxTracker → Prop) (validIP : String → Bool) :
    Worker → Worker → Prop where
  | reorder {w : Worker} {pool : GoMap Address AddrQueue}
      (h : Reorders w.pool pool) : Step G validIP w { w with pool := pool }
  | addTxTracker {w w' : Worker} {state : StateInterface} {tx : TxTracker}
      {r : AddResult} (htx : G tx)
      (h : w.addTxTracker validIP state tx = .ok (w', r)) : Step G validIP w w'
  | call {w w' : Worker} {c : Call} {r : Result}
      (h : w.call validIP c = .ok (w', r)) : Step G validIP w w'

abbrev Run (G : TxTracker → Prop) (validIP : String → Bool) : Worker → Worker → Prop :=
  Relation.ReflTransGen (Step G validIP)

variable {pool : GoMap Address AddrQueue}

lemma Reorders.lookup {pl' : GoMap Address AddrQueue}
    (h : Reorders pool pl') {a : Address} {q' : AddrQueue}
    (hq' : pl'.lookup a = some q') :
    ∃ q notReady, pool.lookup a = some q ∧ q.notReadyTxs.entries.Perm notReady.entries ∧
    q' = { q with notReadyTxs := notReady } := by
  rcases h a with ⟨_, hn⟩ | ⟨q, notReady, hq, hp, hs⟩
  · rw [hn] at hq'
    cases hq'
  · exact ⟨q, notReady, hq, hp, Option.mem_unique hq' hs⟩

lemma consistent_reorder (h : w.Consistent G) (hr : Reorders w.pool pool) :
    ({ w with pool := pool } : Worker).Consistent G where
  shows := by
    have hd : ({ w with pool := pool } : Worker).readyOf = w.readyOf := by
      funext a
      rcases hr a with ⟨hnn, hn⟩ | ⟨q, _, hq, _, hq'⟩
      · rw [readyOf, readyOf, hnn, hn]
      · rw [readyOf_eq hq, readyOf, hq']
        rfl
    rw [hd]
    exact h.shows
  keyed a q' hq' := by
    obtain ⟨q, _, hq, hp, rfl⟩ := hr.lookup hq'
    exact (AddrQueue.shrinks_reorder hp).keyed (h.keyed a q hq) (h.keyed a q hq).ready_nonce
  held a q' hq' t ht := by
    obtain ⟨q, _, hq, hp, rfl⟩ := hr.lookup hq'
    exact h.held a q hq t ((AddrQueue.shrinks_reorder hp).holds ht)
  pending := h.pending

lemma Step.consistent (hG : Identifies G) (hs : Step G validIP w w') (h : w.Consistent G) :
    w'.Consistent G := by
  cases hs with
  | reorder hr => exact consistent_reorder h hr
  | addTxTracker ht ha => exact ((addTxTracker_keepsTo hG validIP h _ ht).of_eq ha).1
  | call hc => exact (call_keeps hG h hc).1

lemma Run.consistent (hG : Identifies G) {limits : BatchConstraintsCfg}
    (hr : Run G validIP (newWorker limits) w) : w.Consistent G := by
  induction hr with
  | refl => exact consistent_new limits
  | tail _ hs ih => exact hs.consistent hG ih

/-- In every reachable state the sorted list holds exactly the ready transactions of the pool, each
once. -/
theorem mem_txSortedList_iff_readyTx {geth : GoEthereum} {signer : Signer}
    {txOf : Hash → LegacyTx} {validIP : String → Bool}
    {constraints : BatchConstraintsCfg} {w : Worker}
    (hrun : Run (TxTracker.Genuine geth signer txOf) validIP (newWorker constraints) w) :
    (∀ a q t, w.pool.lookup a = some q → q.readyTx = some t → t ∈ w.txSortedList.sorted) ∧
    (∀ t ∈ w.txSortedList.sorted, ∃ q, w.pool.lookup t.fromAddr = some q ∧ q.readyTx = some t) ∧
    w.txSortedList.sorted.Nodup ∧
    ∀ t, t ∈ w.txSortedList.sorted ↔ w.txSortedList.list.lookup t.hash = some t := by
  have h := Run.consistent (identifies_genuine geth signer txOf) hrun
  refine ⟨?_, ?_, h.shows.wf.nodup, h.shows.wf.mem_iff⟩
  · intro a q t hq ht
    have hrd := (readyOf_eq hq).trans ht
    rw [h.shows.mem_iff, (h.ready hrd).1, hrd]
  · intro t ht
    exact Option.bind_eq_some_iff.mp ((h.shows.mem_iff t).mp ht)

/-- A transaction without gas, recipient and data; `R` makes its hash. -/
def plainLegacyTx (id : UInt8) (nonce : UInt64) (gasPrice value : ℕ) : LegacyTx :=
  ⟨nonce, gasPrice, 0, none, value, [], 27, id.toNat, 0⟩

def plainSigner : Signer := ⟨fun tx => plainHash (UInt8.ofNat tx.r), fun _ => .ok (cropAddress [])⟩

/-- A state in which every address has nonce 0 and balance 10. -/
def plainState : StateInterface := ⟨.ok (plainHash 0), fun _ _ => .ok 0, fun _ _ => .ok 10⟩

def zeroConstraints : BatchConstraintsCfg := ⟨0, 0, 0, 0, 0, 0, 0, 0, 0⟩

/-- After one `AddTxTracker` the transaction is in the list and it is the ready
transaction of its sender. -/
theorem mem_txSortedList_iff_readyTx_plainTx : ∃ w, Run
    (TxTracker.Genuine .reference plainSigner fun _ => plainLegacyTx 1 0 1 0) (fun _ => true)
    (newWorker zeroConstraints) w ∧ w.txSortedList.sorted = [plainTx 1 0 1 0] ∧ ∃ q, w.pool.lookup
    (cropAddress []) = some q ∧ q.readyTx = some (plainTx 1 0 1 0) := by
  have hg : TxTracker.Genuine .reference plainSigner
      (fun _ => plainLegacyTx 1 0 1 0) (plainTx 1 0 1 0) :=
    ⟨zeroCounters, zeroCounters, "", 1, 0, by decide +kernel⟩
  have had : ∃ r, (newWorker zeroConstraints).addTxTracker (fun _ => true) plainState
      (plainTx 1 0 1 0) = .ok r ∧ r.1.txSortedList.sorted = [plainTx 1 0 1 0] :=
    ⟨_, rfl, rfl⟩
  obtain ⟨r, had, hs⟩ := had
  have hr := Relation.ReflTransGen.single (Step.addTxTracker hg had)
  refine ⟨r.1, hr, hs, ?_⟩
  exact (mem_txSortedList_iff_readyTx hr).2.1 (plainTx 1 0 1 0) (by rw [hs]; simp)

end Worker

end EthdaNode.Sequencer
