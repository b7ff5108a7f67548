import EthdaNode.Sequencer.FinalizerFrames
import EthdaNode.Sequencer.WorkerTxs

/-!
# The transactions of the L2 blocks

A transaction that leaves its queue is in the L2 block in progress, and with its block it
goes from goroutine to goroutine until it is stored or restored. `Custody` says that
the pending transactions of the worker are those of the blocks on their way, and that no
transaction is in two places. `TxPart.Inv` is the invariant of the finalizer.
-/

namespace EthdaNode.Sequencer

open Go State List TxTracker

/-! ## Custody -/

/-- The pending transactions are those `left` of the block being stored and those of the waiting
blocks. Nothing stored is still waiting or in a queue. -/
structure Custody (G : TxTracker → Prop) (w : Worker) (left waiting stored : List Hash)
    (committed : Bool) : Prop where
  tidy : w.Tidy G
  pending : w.pendingToStore.map hash = left ++ waiting
  nodup : (left ++ waiting).Nodup
  queued : ∀ h, w.Queued h → h ∉ left ++ waiting ∧ h ∉ stored
  unstored : ∀ h ∈ waiting, h ∉ stored
  uncommitted : committed = false → ∀ h ∈ left, h ∉ stored
  once : stored.Nodup

namespace Custody

variable {G : TxTracker → Prop} {w w' : Worker} {left waiting stored : List Hash} {committed : Bool}

lemma new (limits : BatchConstraintsCfg) : Custody G (newWorker limits) [] [] [] false where
  tidy := by
    refine ⟨Worker.consistent_new limits, fun a q hq => ?_⟩
    cases hq
  pending := rfl
  nodup := nodup_nil
  queued := by
    rintro h ⟨a, q, t, hl, -⟩
    cases hl
  unstored := nofun
  uncommitted := nofun
  once := nodup_nil

lemma narrow (h : Custody G w left waiting stored committed) (ht : w'.Tidy G)
    (hn : Worker.Narrows w w') : Custody G w' left waiting stored committed :=
  ⟨ht, hn.pending.trans h.pending, h.nodup,
    fun th hq => h.queued th (hn.queued th hq), h.unstored, h.uncommitted, h.once⟩

lemma widen (h : Custody G w left waiting stored committed) (ht : w'.Tidy G)
    {th : Hash} (hw : Worker.Widens th w w') (hn : th ∉ left ++ waiting)
    (hu : th ∉ stored) : Custody G w' left waiting stored committed := by
  refine ⟨ht, ?_, h.nodup, fun h' hq => ?_, h.unstored, h.uncommitted, h.once⟩
  · rw [hw.pending, h.pending]
  rcases hw.queued h' hq with rfl | hq
  · exact ⟨hn, hu⟩
  · exact h.queued h' hq

lemma accept (hG : Identifies G) (h : Custody G w left waiting stored committed)
    {tx t : TxTracker} (hr : w.readyOf tx.fromAddr = some t)
    (hh : t.hash = tx.hash) (hm : w.moveTxPendingToStore tx.hash tx.fromAddr = .ok w') :
    Custody G w' left (waiting ++ [tx.hash]) stored committed := by
  obtain ⟨ht, hd, hqu, hp, -⟩ := Worker.moveTxPendingToStore_spec hG h.tidy hr hh hm
  obtain ⟨hw, hu⟩ := h.queued tx.hash hqu
  refine ⟨ht, ?_, ?_, fun h' hq => ?_, fun h' hh' => ?_, h.uncommitted, h.once⟩
  · rw [hp, h.pending, append_assoc]
  · rw [← append_assoc]
    exact nodup_append_comm.mp (nodup_cons.mpr ⟨hw, h.nodup⟩)
  · obtain ⟨hq, hn⟩ := hd h' hq
    obtain ⟨hnt, ho⟩ := h.queued h' hq
    refine ⟨?_, ho⟩
    rw [← append_assoc, mem_append, mem_singleton]
    exact fun hmm => hmm.elim hnt hn
  · rcases mem_append.mp hh' with hh' | hh'
    · exact h.unstored h' hh'
    · rw [mem_singleton.mp hh']
      exact hu

lemma take {txs rest : List Hash} (h : Custody G w [] (txs ++ rest) stored committed) :
    Custody G w txs rest stored false :=
  ⟨h.tidy, h.pending, h.nodup, h.queued, fun h' hh' => h.unstored h' (mem_append_right txs hh'),
    fun _ h' hh' => h.unstored h' (mem_append_left rest hh'), h.once⟩

lemma commit (h : Custody G w left waiting stored false) :
    Custody G w left waiting (stored ++ left) true := by
  refine ⟨h.tidy, h.pending, h.nodup, fun h' hq => ?_, fun h' hh' => ?_, nofun,
    h.once.append (nodup_append.mp h.nodup).1 fun h' hs hl => h.uncommitted rfl h' hl hs⟩
  · obtain ⟨hn, ho⟩ := h.queued h' hq
    refine ⟨hn, ?_⟩
    rw [mem_append]
    exact fun hm => hm.elim ho fun hm => hn (mem_append_left waiting hm)
  · rw [mem_append]
    exact fun hm => hm.elim (h.unstored h' hh') fun hm => disjoint_of_nodup_append h.nodup hm hh'

lemma delete (hG : Identifies G) {th : Hash} {addr : Address}
    (h : Custody G w (th :: left) waiting stored committed)
    (hd : w.deleteTxPendingToStore th addr = .ok w') : Custody G w' left waiting stored committed ∧
    w'.reorgedTxs.map hash = w.reorgedTxs.map hash ∧ w'.readyOf = w.readyOf := by
  obtain ⟨hf, hn⟩ := nodup_cons.mp h.nodup
  obtain ⟨ht, hqd, hp, hr, hrd⟩ := Worker.deletePendingTx_head hG h.tidy h.pending hf hd
  refine ⟨⟨ht, hp, hn, fun h' hq => ?_, h.unstored, fun hc h' hh' => ?_, h.once⟩, hr, hrd⟩
  · obtain ⟨ho, hnt⟩ := h.queued h' (hqd h' hq)
    exact ⟨fun hm => ho (mem_cons_of_mem th hm), hnt⟩
  · exact h.uncommitted hc h' (mem_cons_of_mem th hh')

lemma restore (hG : Identifies G) (h : Custody G w [] waiting stored committed) {vip : String →
    Bool} {visits : Worker.RangeOrder} {state : ℕ → StateInterface}
    {r : Worker × List TxTracker × List TxTracker} (hs :
    w.restoreTxsPendingToStore vip visits state = .ok r) : Custody G r.1 [] [] stored committed ∧
    r.1.reorgedTxs.map hash = waiting := by
  have hp : w.pendingToStore.map hash = waiting := h.pending
  obtain ⟨ht, hd, hn, hr⟩ := Worker.restoreTxsPendingToStore_tidy hG h.tidy
    (hp ▸ h.nodup) (fun h' hh' hq => (h.queued h' hq).1 (hp ▸ hh')) hs
  refine ⟨⟨ht, ?_, nodup_nil, fun h' hq => ⟨nofun, ?_⟩, nofun, nofun, h.once⟩, ?_⟩
  · rw [hn]
    rfl
  · rcases hd h' hq with hq | hm
    · exact (h.queued h' hq).2
    · exact h.unstored h' (hp ▸ hm)
  · rw [hr, hp]

lemma not_stored_of_getBestFittingTx (h : Custody G w left waiting stored committed)
    {rem : BatchResources} {high : ZKCounters} {n : ℕ} {schedule : List ℕ} {tx : TxTracker}
    (hb : w.getBestFittingTx rem high n schedule = .ok (w', .ok tx)) : tx.hash ∉ stored := by
  obtain ⟨-, hd, -, hr⟩ := Worker.bestFit_tidy h.tidy hb
  obtain ⟨t, ht, hh⟩ := hr tx rfl
  have hq := Worker.queued_of_readyOf ht
  rw [hh, hd] at hq
  exact (h.queued tx.hash hq).2

end Custody

structure TxPart where
  worker : Worker
  storing : Option Storing
  toStore : List PendingL2Block
  discarded : List PendingL2Block
  processing : Option PendingL2Block
  processBusy : Bool
  toProcess : List PendingL2Block
  wipL2Block : Option PendingL2Block
  passedOn : Bool
  l2BlockReorg : Bool
  inProcess : Option Hash
  reorged : List Hash
  stored : List Hash
  reorgs : List (List Hash × List Hash)

namespace TxPart

def wipTxs (p : TxPart) : List Hash :=
  if p.passedOn then [] else p.wipL2Block.toList.flatMap PendingL2Block.txHashes

def closedTxs (p : TxPart) : List Hash :=
  (p.toStore ++ p.discarded ++ p.processing.toList ++ p.toProcess).flatMap PendingL2Block.txHashes

/-- The transactions of the block that is being stored, up to those that are deleted from
the worker. -/
def left (p : TxPart) : List Hash := p.storing.elim [] Storing.left

def waiting (p : TxPart) : List Hash := p.closedTxs ++ p.wipTxs

def committed (p : TxPart) : Bool := p.storing.any Storing.committed

structure Inv (G : TxTracker → Prop) (p : TxPart) : Prop where
  custody : Custody G p.worker p.left p.waiting p.stored p.committed
  discarded : p.l2BlockReorg = false → p.discarded = []
  processing : p.processBusy = false → p.processing = none
  returned : ∀ d ∈ p.reorgs, d.1 ⊆ d.2

structure ProcessIdle (p : TxPart) : Prop where
  toProcess : p.toProcess = []
  processBusy : p.processBusy = false

structure Idle (p : TxPart) : Prop extends ProcessIdle p where
  toStore : p.toStore = []
  storing : p.storing = none

structure MainRely (p p' : TxPart) : Prop where
  wipL2Block : p'.wipL2Block = p.wipL2Block
  passedOn : p'.passedOn = p.passedOn
  inProcess : p'.inProcess = p.inProcess
  reorged : p'.reorged = p.reorged
  reorgedTxs : p'.worker.reorgedTxs.map hash = p.worker.reorgedTxs.map hash
  readyOf : p.inProcess ≠ none → p'.worker.readyOf = p.worker.readyOf
  reorg : p.l2BlockReorg = true → p'.l2BlockReorg = true
  processIdle : p.ProcessIdle → p'.ProcessIdle ∧ p'.discarded = p.discarded
  idle : p.Idle → p'.Idle

structure ProcessRely (p p' : TxPart) : Prop where
  processing : p'.processing = p.processing
  processBusy : p'.processBusy = p.processBusy
  reorg : p.processBusy = true → p'.l2BlockReorg = p.l2BlockReorg
  discarded : p.discarded = [] → p'.discarded = []

structure StoreRely (p p' : TxPart) : Prop where
  storing : p'.storing = p.storing

variable {p p' p'' : TxPart}

lemma MainRely.refl (p : TxPart) : MainRely p p :=
  ⟨rfl, rfl, rfl, rfl, rfl, fun _ => rfl, fun h => h, fun h => ⟨h, rfl⟩, fun h => h⟩

lemma MainRely.trans (h : MainRely p p') (h' : MainRely p' p'') : MainRely p p'' where
  wipL2Block := h'.wipL2Block.trans h.wipL2Block
  passedOn := h'.passedOn.trans h.passedOn
  inProcess := h'.inProcess.trans h.inProcess
  reorged := h'.reorged.trans h.reorged
  reorgedTxs := h'.reorgedTxs.trans h.reorgedTxs
  readyOf hne := by rw [h'.readyOf (by rwa [h.inProcess]), h.readyOf hne]
  reorg hreorg := h'.reorg (h.reorg hreorg)
  processIdle hidle := by
    obtain ⟨hi, hdi⟩ := h.processIdle hidle
    obtain ⟨hl, hd⟩ := h'.processIdle hi
    exact ⟨hl, hd.trans hdi⟩
  idle hidle := h'.idle (h.idle hidle)

lemma ProcessRely.of_eq (hp : p'.processing = p.processing) (hb : p'.processBusy = p.processBusy)
    (hr : p'.l2BlockReorg = p.l2BlockReorg) (hd : p'.discarded = p.discarded) : ProcessRely p p' :=
  ⟨hp, hb, fun _ => hr, fun hn => hd.trans hn⟩

lemma ProcessRely.trans (h : ProcessRely p p') (h' : ProcessRely p' p'') : ProcessRely p p'' where
  processing := h'.processing.trans h.processing
  processBusy := h'.processBusy.trans h.processBusy
  reorg hbusy := by rw [h'.reorg (h.processBusy.trans hbusy), h.reorg hbusy]
  discarded hnil := h'.discarded (h.discarded hnil)

/-! ### Steps of the main loop -/

section
variable {G : TxTracker → Prop}

structure MainStep (G : TxTracker → Prop) (p p' : TxPart) : Prop where
  inv : p'.Inv G
  process : p.ProcessRely p'
  store : p.StoreRely p'

variable {w : Worker}

lemma Inv.narrow (h : p.Inv G) (ht : w.Tidy G) (hn : Worker.Narrows p.worker w)
    (inProcess : Option Hash) :
    MainStep G p { p with worker := w, inProcess := inProcess } :=
  ⟨⟨h.custody.narrow ht hn, h.discarded, h.processing, h.returned⟩, .of_eq rfl rfl rfl rfl, ⟨rfl⟩⟩

lemma Inv.best (h : p.Inv G) (ht : w.Tidy G) (hq : w.Queued = p.worker.Queued)
    (hp : w.pendingToStore = p.worker.pendingToStore) (inProcess : Option Hash) :
    MainStep G p { p with worker := w, inProcess := inProcess } := by
  refine ⟨⟨⟨ht, ?_, h.custody.nodup, ?_, h.custody.unstored, h.custody.uncommitted,
    h.custody.once⟩, h.discarded, h.processing, h.returned⟩, .of_eq rfl rfl rfl rfl, ⟨rfl⟩⟩
  · rw [hp]
    exact h.custody.pending
  · rw [hq]
    exact h.custody.queued

variable {b : PendingL2Block}

lemma wipTxs_eq (hb : p.wipL2Block = some b) (hp : p.passedOn = false) : p.wipTxs = b.txHashes := by
  rw [wipTxs, hp, hb]
  exact append_nil _

lemma wipTxs_none (hb : p.wipL2Block = none) : p.wipTxs = [] := by
  rw [wipTxs, hb]
  exact ite_self []

lemma wipTxs_passedOn (hp : p.passedOn = true) : p.wipTxs = [] := by
  rw [wipTxs, hp]
  rfl

lemma Inv.setWip (h : p.Inv G) (block : Option PendingL2Block) (passedOn : Bool)
    (ht : wipTxs { p with wipL2Block := block, passedOn := passedOn } = p.wipTxs) :
    MainStep G p { p with wipL2Block := block, passedOn := passedOn } := by
  refine ⟨⟨?_, h.discarded, h.processing, h.returned⟩, .of_eq rfl rfl rfl rfl, ⟨rfl⟩⟩
  have hc := h.custody
  rw [waiting, ← ht] at hc
  exact hc

lemma Inv.closeWip (h : p.Inv G) (hp : p.passedOn = true) :
    MainStep G p { p with wipL2Block := none } := by
  refine h.setWip none p.passedOn ?_
  rw [wipTxs_passedOn hp]
  exact wipTxs_passedOn hp

lemma Inv.openWip (h : p.Inv G) (ht : p.wipTxs = []) (hb : b.txHashes = []) :
    MainStep G p { p with wipL2Block := some b, passedOn := false } := by
  refine h.setWip (some b) false ?_
  rw [ht, ← hb]
  exact wipTxs_eq rfl rfl

variable {block' : PendingL2Block}

lemma Inv.changeWip (h : p.Inv G) (hb : p.wipL2Block = some b)
    (hp : p.passedOn = false) (ht : block'.txHashes = b.txHashes) :
    MainStep G p { p with wipL2Block := some block' } := by
  refine h.setWip (some block') p.passedOn ?_
  rw [wipTxs_eq hb hp, ← ht]
  exact wipTxs_eq rfl hp

lemma Inv.accept (hG : Identifies G) (h : p.Inv G) (hb : p.wipL2Block = some b)
    (hp : p.passedOn = false) {tx t : TxTracker}
    (hr : p.worker.readyOf tx.fromAddr = some t) (hh : t.hash = tx.hash)
    (hl : block'.txHashes = b.txHashes ++ [tx.hash])
    (hm : p.worker.moveTxPendingToStore tx.hash tx.fromAddr = .ok w) :
    MainStep G p { p with worker := w, wipL2Block := some block' } := by
  refine ⟨⟨?_, h.discarded, h.processing, h.returned⟩, .of_eq rfl rfl rfl rfl, ⟨rfl⟩⟩
  have hc := h.custody.accept hG hr hh hm
  rw [waiting, wipTxs_eq hb hp, append_assoc, ← hl] at hc
  have hw := wipTxs_eq (p := { p with worker := w, wipL2Block := some block' }) rfl hp
  rw [waiting, hw]
  exact hc

lemma Inv.send (h : p.Inv G) (hb : p.wipL2Block = some b) (hp : p.passedOn = false) :
    MainStep G p { p with toProcess := p.toProcess ++ [b], passedOn := true } := by
  refine ⟨⟨?_, h.discarded, h.processing, h.returned⟩, .of_eq rfl rfl rfl rfl, ⟨rfl⟩⟩
  have hc := h.custody
  rw [waiting, wipTxs_eq hb hp] at hc
  have hw : { p with
      toProcess := p.toProcess ++ [b], passedOn := true }.waiting = p.closedTxs ++ b.txHashes := by
    simp [waiting, closedTxs, wipTxs, flatMap_append]
  rw [hw]
  exact hc

lemma closedTxs_idle (hi : p.Idle) (hp : p.processing = none) :
    p.closedTxs = p.discarded.flatMap PendingL2Block.txHashes := by
  simp [closedTxs, hi.toStore, hi.toProcess, hp]

lemma Inv.restore (hG : Identifies G) (h : p.Inv G) (hi : p.Idle)
    {vip : String → Bool} {visits : Worker.RangeOrder} {state : ℕ → StateInterface}
    {r : Worker × List TxTracker × List TxTracker}
    (hs : p.worker.restoreTxsPendingToStore vip visits state = .ok r)
    (discarded : List Hash) :
    MainStep G p { p with
    worker := r.1, discarded := [], passedOn := true, reorged := discarded } ∧
    r.1.reorgedTxs.map hash = p.discarded.flatMap PendingL2Block.txHashes ++ p.wipTxs := by
  have hp := h.processing hi.processBusy
  have hc := h.custody
  rw [left, waiting, closedTxs_idle hi hp, hi.storing] at hc
  obtain ⟨he, hr⟩ := hc.restore hG hs
  refine ⟨⟨⟨?_, fun _ => rfl, h.processing, h.returned⟩, ⟨rfl, rfl, fun _ => rfl, fun _ => rfl⟩,
    ⟨rfl⟩⟩, hr⟩
  have hw : { p with
      worker := r.1, discarded := [], passedOn := true, reorged := discarded }.waiting = [] := by
    simp [waiting, closedTxs, wipTxs, hi.toStore, hi.toProcess, hp]
  have hl : { p with
      worker := r.1, discarded := [], passedOn := true, reorged := discarded }.left = [] := by
    rw [left, hi.storing]
    rfl
  rw [hw, hl]
  exact he

lemma Inv.restarted (h : p.Inv G) (hi : p.Idle) (hs : p.discarded = [])
    {back : List Hash} (hc : p.reorged ⊆ back) :
    MainStep G p { p with
    l2BlockReorg := false, reorgs := p.reorgs ++ [(p.reorged, back)] } := by
  refine ⟨⟨h.custody, fun _ => hs, h.processing, fun d hd => ?_⟩,
    ⟨rfl, rfl, fun hb => ?_, fun hn => hn⟩, ⟨rfl⟩⟩
  · rcases mem_append.mp hd with hd | hd
    · exact h.returned d hd
    · rw [mem_singleton.mp hd]
      exact hc
  · exact absurd (hi.processBusy.symm.trans hb) nofun
end

/-! ### Steps of the other goroutines -/

section
variable {G : TxTracker → Prop}

structure ProcessStep (G : TxTracker → Prop) (p p' : TxPart) : Prop where
  inv : p'.Inv G
  main : p.MainRely p'
  store : p.StoreRely p'

structure StoreStep (G : TxTracker → Prop) (p p' : TxPart) : Prop where
  inv : p'.Inv G
  main : p.MainRely p'
  process : p.ProcessRely p'

/-- What the goroutine that processes L2 blocks does is seen when it is busy only. -/
lemma mainRely_process {toStore dsc tp : List PendingL2Block}
    {processing : Option PendingL2Block} {pb reorg : Bool}
    (hr : p.l2BlockReorg = true → reorg = true) (hb : ¬p.ProcessIdle) :
    p.MainRely { p with
    toStore := toStore, discarded := dsc, toProcess := tp,
    processing := processing, processBusy := pb, l2BlockReorg := reorg } :=
  ⟨rfl, rfl, rfl, rfl, rfl, fun _ => rfl, hr, fun hi => absurd hi hb,
    fun hi => absurd hi.toProcessIdle hb⟩

lemma not_processIdle (hb : p.processBusy = true) : ¬p.ProcessIdle :=
  fun hi => absurd (hi.processBusy.symm.trans hb) nofun

variable {b : PendingL2Block}

lemma Inv.takeToProcess (h : p.Inv G) (hb : p.processBusy = false)
    (hl : p.toProcess.head? = some b) :
    ProcessStep G p { p with
    toProcess := p.toProcess.tail, processing := some b, processBusy := true } := by
  obtain ⟨rest, hr⟩ := List.head?_eq_some_iff.mp hl
  refine ⟨⟨?_, h.discarded, nofun, h.returned⟩, mainRely_process id fun hi => ?_, ⟨rfl⟩⟩
  · have hc := h.custody
    have hw : { p with
        toProcess := p.toProcess.tail
        processing := some b
        processBusy := true }.waiting = p.waiting := by
      simp [waiting, closedTxs, wipTxs, hr, h.processing hb]
    rw [hw]
    exact hc
  · rw [hi.toProcess] at hr
    cases hr

lemma Inv.detectReorg (h : p.Inv G) (hb : p.processBusy = true) (dtc : Bool) :
    ProcessStep G p { p with l2BlockReorg := p.l2BlockReorg || dtc } := by
  refine ⟨⟨h.custody, fun hr => h.discarded (Bool.or_eq_false_iff.mp hr).1, h.processing,
    h.returned⟩, mainRely_process (fun hr => ?_) (not_processIdle hb), ⟨rfl⟩⟩
  rw [hr, Bool.true_or]

lemma Inv.toStore (h : p.Inv G) (hb : p.processBusy = true)
    {block' : PendingL2Block} (hl : p.processing = some b)
    (hd : p.discarded = []) (ht : block'.txHashes = b.txHashes) :
    ProcessStep G p { p with toStore := p.toStore ++ [block'], processing := none } := by
  refine ⟨⟨?_, h.discarded, fun _ => rfl, h.returned⟩, mainRely_process id (not_processIdle hb),
    ⟨rfl⟩⟩
  have hc := h.custody
  have hw : { p with toStore := p.toStore ++ [block'], processing := none }.waiting =
      p.waiting := by
    simp [waiting, closedTxs, wipTxs, hl, hd, ht]
  rw [hw]
  exact hc

lemma Inv.discard (h : p.Inv G) (hb : p.processBusy = true)
    (hl : p.processing = some b) (hr : p.l2BlockReorg = true) :
    ProcessStep G p { p with processing := none, discarded := p.discarded ++ [b] } := by
  refine ⟨⟨?_, fun hf => absurd (hr.symm.trans hf) nofun, fun _ => rfl, h.returned⟩,
    mainRely_process id (not_processIdle hb), ⟨rfl⟩⟩
  have hc := h.custody
  have hw : { p with
      processing := none, discarded := p.discarded ++ [b] }.waiting = p.waiting := by
    simp [waiting, closedTxs, wipTxs, hl]
  rw [hw]
  exact hc

lemma Inv.processed (h : p.Inv G) (hb : p.processBusy = true) (hp : p.processing = none) :
    ProcessStep G p { p with processBusy := false } :=
  ⟨⟨h.custody, h.discarded, fun _ => hp, h.returned⟩,
    mainRely_process id (not_processIdle hb), ⟨rfl⟩⟩

variable {w : Worker}

/-- What the goroutine that stores L2 blocks does is seen when it is not idle only. -/
lemma mainRely_store {sto : Option Storing} {toStore : List PendingL2Block} {stored : List Hash}
    (hr : w.reorgedTxs.map hash = p.worker.reorgedTxs.map hash)
    (hd : w.readyOf = p.worker.readyOf) (hb : ¬p.Idle) :
    p.MainRely { p with
    worker := w, storing := sto, toStore := toStore, stored := stored } :=
  ⟨rfl, rfl, rfl, rfl, hr, fun _ => hd, fun h => h,
    fun h => ⟨⟨h.toProcess, h.processBusy⟩, rfl⟩, fun hi => absurd hi hb⟩

lemma not_idle {sto : Storing} (hs : p.storing = some sto) : ¬p.Idle :=
  fun hi => absurd (hi.storing.symm.trans hs) nofun

lemma Inv.takeToStore (h : p.Inv G) (hs : p.storing = none) (hb : p.toStore.head? = some b) :
    StoreStep G p { p with
    toStore := p.toStore.tail, storing := some ⟨b, false, b.txHashes⟩ } := by
  obtain ⟨rest, hr⟩ := List.head?_eq_some_iff.mp hb
  refine ⟨⟨?_, h.discarded, h.processing, h.returned⟩,
    mainRely_store rfl rfl fun hi => ?_, .of_eq rfl rfl rfl rfl⟩
  · have hc := h.custody
    have hw : p.waiting = b.txHashes ++ { p with
        toStore := p.toStore.tail
        storing := some ⟨b, false, b.txHashes⟩ }.waiting := by
      simp [waiting, closedTxs, wipTxs, hr]
    rw [left, hs, hw] at hc
    exact hc.take
  · rw [hi.toStore] at hr
    cases hr

lemma Inv.commit (h : p.Inv G) (hs : p.storing = some ⟨b, false, b.txHashes⟩) :
    StoreStep G p { p with
    storing := some ⟨b, true, b.txHashes⟩
    stored := p.stored ++ b.txHashes } := by
  refine ⟨⟨?_, h.discarded, h.processing, h.returned⟩,
    mainRely_store rfl rfl (not_idle hs), .of_eq rfl rfl rfl rfl⟩
  have hc := h.custody
  rw [left, committed, hs] at hc
  exact hc.commit

lemma Inv.delete (hG : Identifies G) (h : p.Inv G) {th : Hash} {rest : List Hash}
    (hs : p.storing = some ⟨b, true, th :: rest⟩) {addr : Address}
    (hd : p.worker.deleteTxPendingToStore th addr = .ok w) :
    StoreStep G p { p with worker := w, storing := some ⟨b, true, rest⟩ } := by
  have hc := h.custody
  rw [left, committed, hs] at hc
  obtain ⟨hl, hr, hrd⟩ := hc.delete hG hd
  exact ⟨⟨hl, h.discarded, h.processing, h.returned⟩,
    mainRely_store hr hrd (not_idle hs), .of_eq rfl rfl rfl rfl⟩

lemma Inv.stored (h : p.Inv G) (hs : p.storing = some ⟨b, true, []⟩) :
    StoreStep G p { p with storing := none } := by
  refine ⟨⟨?_, h.discarded, h.processing, h.returned⟩,
    mainRely_store rfl rfl (not_idle hs), .of_eq rfl rfl rfl rfl⟩
  have hc := h.custody
  rw [left, hs] at hc
  exact ⟨hc.tidy, hc.pending, hc.nodup, hc.queued, hc.unstored, nofun, hc.once⟩

lemma Inv.widen (h : p.Inv G) (hp : p.inProcess = none) (ht : w.Tidy G) {th : Hash}
    (hw : Worker.Widens th p.worker w) (hnw : th ∉ p.left ++ p.waiting)
    (hu : th ∉ p.stored) :
    MainStep G p { p with worker := w } ∧ p.MainRely { p with worker := w } := by
  refine ⟨⟨⟨h.custody.widen ht hw hnw hu, h.discarded, h.processing, h.returned⟩, .of_eq rfl rfl rfl
    rfl, ⟨rfl⟩⟩, rfl, rfl, rfl, rfl, ?_, fun hn => absurd hp hn, fun h => h, fun h => ⟨⟨h.toProcess,
    h.processBusy⟩, rfl⟩, fun h => ⟨⟨h.toProcess, h.processBusy⟩, h.toStore, h.storing⟩⟩
  rw [hw.reorged]
end

end TxPart

end EthdaNode.Sequencer
