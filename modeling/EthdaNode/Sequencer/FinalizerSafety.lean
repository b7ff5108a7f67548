import EthdaNode.Sequencer.FinalizerTxs
import EthdaNode.Sequencer.FinalizerForced

/-!
# What holds in every run of the finalizer

The invariants of the outlines, said of the configurations that the goroutines can reach.
-/

namespace EthdaNode.Sequencer

open Go List State

namespace Finalizer

variable {cfg : FinalizerCfg} {G : TxTracker → Prop} {state : List StateBatch}
  {c : Process Finalizer NewL2BlockArgs Fault Goroutine}

/-- A transaction that is in a queue of the worker is not in an L2 block that waits to be stored,
neither those in queues nor those in waiting blocks were stored, and none is stored twice. -/
theorem queued_apart (hG : Identifies G) (h : Reaches cfg G (fun _ _ => True) state c) :
    (∀ txHash, c.shared.worker.Queued txHash →
      txHash ∉ c.shared.unstoredTxs ∧ txHash ∉ storedTxs c.shared.trace) ∧
    (∀ txHash ∈ c.shared.txPart.waiting, txHash ∉ storedTxs c.shared.trace) ∧
    (storedTxs c.shared.trace).Nodup := by
  have hh := (txsOutline_valid cfg hG).sound (fun c hc => by
    rw [hc]
    exact holds_startProcess_txs cfg G state) h
  exact ⟨hh.inv.custody.queued, hh.inv.custody.unstored, hh.inv.custody.once⟩

theorem queued_apart_reorgedTx :
    ∃ c, Reaches plainCfg TracksPlain (fun _ _ => True) plainBatches c ∧
      c.shared.worker.Queued (plainTx 1 0 1 0).hash ∧
      (plainTx 1 0 1 0).hash ∉ c.shared.unstoredTxs := by
  obtain ⟨c, h, -, hq⟩ := reaches_reorgedTx
  exact ⟨c, h, hq, ((queued_apart identifies_tracksPlain h).1 _ hq).1⟩

/-- The L2 blocks are processed in the order of their batches: those that wait are of the same or of
later batches than all that were executed, and the batch in progress is the last one. -/
theorem blocks_in_batch_order (h : Reaches cfg G (fun _ _ => True) state c) :
    c.shared.startPart.refs.Pairwise (· ≤ ·) ∧
    (∀ s ∈ startedBatches c.shared.trace, ∀ r ∈ c.shared.startPart.refs, s ≤ r) ∧
    ∀ w, c.shared.wipBatch = some w → w + 1 = c.shared.batches.length := by
  have hh : startOutline.Holds c := (startOutline_valid cfg G).sound (fun c hc => by
    rw [hc]
    exact holds_startProcess_start cfg state) h
  have hi : c.shared.startPart.Inv := hh.inv
  refine ⟨hi.sorted, hi.before, fun w hw => ?_⟩
  rw [hi.wipLast w hw, startPart, length_map]

/-- Blocks of batch 0 were executed, and one of batch 1 waits. -/
theorem blocks_in_batch_order_nextBatch :
    ∃ c, Reaches plainCfg PlainTx (fun _ _ => True) plainBatches c ∧
      startedBatches c.shared.trace = [0, 0] ∧ c.shared.startPart.refs = [1, 1] ∧
      c.shared.startPart.refs.Pairwise (· ≤ ·) := by
  obtain ⟨c, -, h, htrace, hto, -, hprocessing, hwip, -⟩ := reaches_nextBatch
  have h := h.mono fun _ _ _ => trivial
  refine ⟨c, h, by rw [htrace]; rfl, ?_, (blocks_in_batch_order h).1⟩
  rw [StartPart.refs, StartPart.pendingRefs]
  simp only [startPart, hto, hprocessing, hwip]
  rfl

/-- Without forced batches and outside a reorg, the batches with L2 blocks to process are
consecutive up to the one in progress, and the last row of the state has the root of the last stored
block. -/
theorem batches_consecutive (h : Reaches cfg G NoForcedBatches state c) :
    (c.shared.l2BlockReorg = false → ∃ root, BatchChain (c.shared.batches.map HeapBatch.info)
      ((c.shared.rootPart (startRoots state)).refs ++ c.shared.wipBatch.toList) root) ∧
    ∀ row, (c.shared.rootPart (startRoots state)).rows.head? = some row →
      row.2 = ((startRoots state).afterAll c.shared.trace).stored := by
  have hr := h.strengthen (K := blocksOutline.inv) fun c hc =>
    (holds_of_forcedWithL2Block (hc.mono fun _ _ => NoForcedBatches.forcedWithL2Block)).inv
  have hh := (rootsOutline_valid cfg G (startRoots state)).sound (fun c hc => by
    rw [hc]
    exact holds_startProcess_roots cfg state) hr
  exact ⟨fun hrg => ⟨_, (hh.inv.2.linked hrg).chain⟩, hh.inv.2.stored_eq⟩

theorem batches_consecutive_nextBatch :
    ∃ c root, Reaches plainCfg PlainTx NoForcedBatches plainBatches c ∧
      BatchChain (c.shared.batches.map HeapBatch.info) [1, 1, 1] root := by
  obtain ⟨c, -, h, -, hto, hpip, hprocessing, hwip, -, hreorg, -⟩ := reaches_nextBatch
  obtain ⟨root, hchain⟩ := (batches_consecutive h).1 hreorg
  refine ⟨c, root, h, ?_⟩
  have hrefs : (c.shared.rootPart (startRoots plainBatches)).refs = [1, 1] := by
    have hnext : c.shared.pendingL2BlocksToProcess.filterMap PendingL2Block.batch = [1] := by
      rw [← Function.id_comp PendingL2Block.batch, ← filterMap_map, hto]
      rfl
    rw [RootPart.refs, rootPart, hpip, hprocessing, Option.toList_none, nil_append, hnext]
    rfl
  rwa [hrefs, hwip] at hchain

end Finalizer

namespace Worker

variable {geth : GoEthereum} {signer : Signer} {txOf : Hash → LegacyTx} {validIP : String → Bool}
  {constraints : BatchConstraintsCfg} {w : Worker}

/-- At any time at most one transaction of a sender is offered, with the nonce that the sender has,
and every transaction is in the queue of its sender only, the ones that wait under their nonce. -/
theorem offers_one_of_sender
    (hrun : Run (TxTracker.Genuine geth signer txOf) validIP (newWorker constraints) w) :
    (∀ t ∈ w.txSortedList.sorted, ∀ t' ∈ w.txSortedList.sorted, t.fromAddr = t'.fromAddr → t = t') ∧
    (∀ t ∈ w.txSortedList.sorted, ∃ q, w.pool.lookup t.fromAddr = some q ∧
      t.nonce = q.currentNonce) ∧
    ∀ a q, w.pool.lookup a = some q → (∀ t, q.Holds t → t.fromAddr = a) ∧
      ∀ n t, q.notReadyTxs.lookup n = some t → t.nonce = n := by
  have h := Run.consistent (identifies_genuine geth signer txOf) hrun
  refine ⟨fun t ht t' ht' heq => ?_, fun t ht => ?_, fun a q hq => ?_⟩
  · have hr := (h.shows.mem_iff t).mp ht
    rw [heq, (h.shows.mem_iff t').mp ht'] at hr
    exact (Option.some.inj hr).symm
  · obtain ⟨q, hq, hr⟩ := Option.bind_eq_some_iff.mp ((h.shows.mem_iff t).mp ht)
    exact ⟨q, hq, (h.keyed _ q hq).ready_nonce t hr⟩
  · exact ⟨fun t ht => (h.held a q hq t ht).1, (h.keyed a q hq).key_eq⟩

theorem offers_one_of_sender_plainTx : ∃ w, Run (TxTracker.Genuine .reference plainSigner fun _ =>
    plainLegacyTx 1 0 1 0) (fun _ => true) (newWorker zeroConstraints) w ∧
    w.txSortedList.sorted = [plainTx 1 0 1 0] ∧
    ∃ q, w.pool.lookup (plainTx 1 0 1 0).fromAddr = some q ∧ 0 = q.currentNonce := by
  have hg : TxTracker.Genuine .reference plainSigner
      (fun _ => plainLegacyTx 1 0 1 0) (plainTx 1 0 1 0) :=
    ⟨zeroCounters, zeroCounters, "", 1, 0, by decide +kernel⟩
  have ha : ∃ r, (newWorker zeroConstraints).addTxTracker (fun _ => true) plainState
      (plainTx 1 0 1 0) = .ok r ∧ r.1.txSortedList.sorted = [plainTx 1 0 1 0] := ⟨_, rfl, rfl⟩
  obtain ⟨r, ha, hs⟩ := ha
  have hr := Relation.ReflTransGen.single (Step.addTxTracker hg ha)
  exact ⟨r.1, hr, hs, (offers_one_of_sender hr).2.1 _ (by rw [hs]; exact mem_cons_self)⟩

end Worker

end EthdaNode.Sequencer
