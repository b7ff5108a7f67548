import EthdaNode.Sequencer.FinalizerBlocks
import EthdaNode.Sequencer.PendingTxs

/-!
# The transactions of the finalizer

In every run of the goroutines the pending transactions of the worker are those of the L2
blocks on their way, in order, and an L2 block reorg gives all of them back to the worker.
-/

namespace EthdaNode.Sequencer

open Go Go.Code Go.Outline List TxPart Worker

namespace Finalizer

/-! ## The outline -/

/-- The transactions discarded by the reorgs so far, and those that the worker could offer at their
end. -/
def reorgsOf (trace : List Event) : List (List Hash × List Hash) :=
  trace.filterMap fun
    | .reorged discarded back => some (discarded, back)
    | _ => none

def txPart (f : Finalizer) : TxPart where
  worker := f.worker
  storing := f.storing
  toStore := f.pendingL2BlocksToStore
  discarded := f.discarded
  processing := f.processing
  processBusy := f.processBusy
  toProcess := f.pendingL2BlocksToProcess
  wipL2Block := f.wipL2Block
  passedOn := f.passedOn
  l2BlockReorg := f.l2BlockReorg
  inProcess := f.inProcess
  reorged := f.reorged
  stored := storedTxs f.trace
  reorgs := reorgsOf f.trace

end Finalizer

namespace TxPart

/-- During the restart after a reorg nothing is on its way, and the worker has the discarded
transactions. -/
structure Restarted (p : TxPart) : Prop extends Idle p where
  discarded : p.discarded = []
  reorged : p.reorged ⊆ p.worker.reorgedTxs.map TxTracker.hash

/-- What the main loop knows between its calls: a block passed on is no longer in progress. With
`again` it restarts. -/
structure Ready (again : Bool) (p : TxPart) : Prop where
  fresh : p.passedOn = true → p.wipL2Block = none
  restarted : again = true → p.Restarted

structure Opens (again : Bool) (p : TxPart) : Prop where
  wipTxs : p.wipTxs = []
  restarted : again = true → p.Restarted

structure Placing (again : Bool) (p : TxPart) : Prop where
  passedOn : p.passedOn = false
  unplaced : ∀ block, p.wipL2Block = some block → block.batch = none
  restarted : again = true → p.Restarted

/-- A transaction is in process: the ready one of its sender. -/
structure Offered (tx : TxTracker) (p : TxPart) : Prop where
  inProcess : p.inProcess ≠ none
  ready : ∃ t, p.worker.readyOf tx.fromAddr = some t ∧ t.hash = tx.hash

def Stable (P : TxPart → Prop) : Prop := ∀ p p', P p → p.MainRely p' → P p'

variable {p p' : TxPart} {ag : Bool}

lemma Restarted.stable (h : p.Restarted) (hr : p.MainRely p') : p'.Restarted := by
  refine ⟨hr.idle h.toIdle, ?_, ?_⟩
  · rw [(hr.processIdle h.toProcessIdle).2, h.discarded]
  · rw [hr.reorged, hr.reorgedTxs]
    exact h.reorged

lemma Restarted.setWip (h : p.Restarted) (block : Option PendingL2Block)
    (passedOn : Bool) : Restarted { p with wipL2Block := block, passedOn := passedOn } :=
  ⟨⟨⟨h.toProcess, h.processBusy⟩, h.toStore, h.storing⟩, h.discarded, h.reorged⟩

lemma stable_ready (ag : Bool) : Stable (Ready ag) := by
  intro p p' hp hr
  refine ⟨fun hs => ?_, fun ha => (hp.restarted ha).stable hr⟩
  rw [hr.wipL2Block]
  exact hp.fresh (hr.passedOn.symm.trans hs)

lemma wipTxs_congr (hb : p'.wipL2Block = p.wipL2Block)
    (hp : p'.passedOn = p.passedOn) : p'.wipTxs = p.wipTxs := by
  rw [wipTxs, hb, hp, wipTxs]

lemma stable_opens (ag : Bool) : Stable (Opens ag) := by
  intro p p' hp hr
  refine ⟨?_, fun ha => (hp.restarted ha).stable hr⟩
  rw [wipTxs_congr hr.wipL2Block hr.passedOn, hp.wipTxs]

lemma stable_placing (ag : Bool) : Stable (Placing ag) := by
  intro p p' hp hr
  refine ⟨hr.passedOn.trans hp.passedOn, fun blk hb => ?_, fun ha => (hp.restarted ha).stable hr⟩
  exact hp.unplaced blk (hr.wipL2Block.symm.trans hb)

lemma stable_offered (tx : TxTracker) : Stable fun p => p.Ready fls ∧ p.Offered tx := by
  rintro p p' ⟨hd, ho⟩ hr
  refine ⟨stable_ready fls p p' hd hr, ?_, ?_⟩
  · rw [hr.inProcess]
    exact ho.inProcess
  · rw [hr.readyOf ho.inProcess]
    exact ho.ready

lemma Ready.passedOn (h : p.Ready ag) {blk : PendingL2Block}
    (hb : p.wipL2Block = some blk) : p.passedOn = false := by
  cases hp : p.passedOn with
  | false => rfl
  | true => exact absurd ((h.fresh hp).symm.trans hb) nofun

lemma Placing.ready (h : p.Placing ag) : p.Ready ag :=
  ⟨fun hp => absurd (h.passedOn.symm.trans hp) nofun, h.restarted⟩

end TxPart

namespace Finalizer

def txsOutline (G : TxTracker → Prop) : Outline Finalizer NewL2BlockArgs Fault Goroutine Bool where
  allowed _ _ := True
  inv f := f.txPart.Inv G
  rely
    | .main, f, f' => f.txPart.MainRely f'.txPart
    | .process, f, f' => f.txPart.ProcessRely f'.txPart
    | .store, f, f' => f.txPart.StoreRely f'.txPart
    | _, _, _ => True
  rely_refl i f := by
    cases i with
    | main => exact .refl _
    | process => exact .of_eq rfl rfl rfl rfl
    | store => exact ⟨rfl⟩
    | _ => trivial
  rely_trans i f₁ f₂ f₃ h h' := by
    cases i with
    | main => exact h.trans h'
    | process => exact h.trans h'
    | store => exact ⟨h'.storing.trans h.storing⟩
    | _ => trivial
  loop
    | .main, f => f.txPart.Ready false
    | .process, f => f.processBusy = false
    | .store, f => f.storing = none
    | _, _ => True
  pre i _ again f := i = .main ∧ f.txPart.Opens again
  post _ _ again f := f.txPart.Ready again
  expected _ := True

/-! ## Code that leaves the transactions -/

abbrev LeavesTxs {α : Type} (code : Run α) : Prop :=
  code.Within (fun f f' => f'.txPart = f.txPart) fun _ => True

variable {f : Finalizer}

lemma Still.txPart_eq {f' : Finalizer} (h : Still f f') : f'.txPart = f.txPart := by
  have he : f'.still.txPart = f.still.txPart := by rw [h.eq]
  exact he

lemma SameUnclosed.txPart_eq {f' : Finalizer} (h : SameUnclosed f f') : f'.txPart = f.txPart := by
  have he : f'.unclosed.txPart = f.unclosed.txPart := by rw [h.eq]
  exact he

lemma Stays.leavesTxs {α : Type} {code : Run α} (h : Stays code) : LeavesTxs code :=
  h.mono (fun _ _ => Still.txPart_eq) fun _ _ => trivial

lemma leavesTxs_of_unclosed {α : Type} {code : Run α}
    (h : code.Within SameUnclosed OtherFault) : LeavesTxs code :=
  h.mono (fun _ _ => SameUnclosed.txPart_eq) fun _ _ => trivial

lemma leavesTxs_modify {g : Finalizer → Finalizer} (h : ∀ f, (g f).txPart = f.txPart) :
    LeavesTxs (.modify g) :=
  within_modify h

section
variable {G : TxTracker → Prop} {f : Finalizer} {i : Goroutine}

lemma sees_txPart : (txsOutline G).Sees txPart where
  inv heq hinv := by
    show Inv G _
    rw [heq]
    exact hinv
  rely {j f f'} heq := by
    have hr := (txsOutline G).rely_refl j f
    cases j <;> simp only [txsOutline, heq] at hr ⊢ <;> exact hr

lemma wp_haltTxs {α : Type} {Q : α → Finalizer → Prop} : (txsOutline G).Wp i Q halt f := by
  refine (sees_txPart.wp_within (P := fun _ => True) ?_ (fun _ _ h _ => h) trivial).seq
    fun _ _ _ => trivial
  exact leavesTxs_modify fun _ => rfl
end

section
variable {G : TxTracker → Prop} {cfg : FinalizerCfg} {f : Finalizer} {ag : Bool}

lemma main_txs : (txsOutline G).Party .main txPart (Inv G) MainRely (MainStep G) where
  sees := sees_txPart
  inv h := h
  rely h := h
  step h := by
    refine ⟨h.inv, fun j hj => ?_⟩
    cases j with
    | main => exact absurd rfl hj
    | process => exact h.process
    | store => exact h.store
    | _ => trivial
  expected _ := trivial

structure NarrowsTxs (G : TxTracker → Prop) (f f' : Finalizer) : Prop where
  txPart : ∃ w inProcess, f'.txPart = { f.txPart with worker := w, inProcess := inProcess } ∧
      (f.worker.Tidy G → w.Tidy G ∧ Narrows f.worker w)

/-- The code takes transactions out of the worker at most. -/
abbrev NarrowsWorker (G : TxTracker → Prop) {α : Type} (code : Run α) : Prop :=
  code.Within (NarrowsTxs G) fun _ => True

variable {α : Type}

lemma narrows_callWorker {g : Worker → Outcome WorkerError (Worker × α)} (hg : ∀ w r, w.Tidy G →
    g w = .ok r → r.1.Tidy G ∧ Narrows w r.1) : NarrowsWorker G (callWorker g) := by
  refine within_action (fun _ _ _ => trivial) fun f a f' hf => ?_
  obtain ⟨r, hc, -, rfl⟩ := bind_pair_inj hf
  exact ⟨r.1, f.inProcess, rfl, fun ht => hg _ r ht (returned_ok_iff.mp hc)⟩

lemma wp_narrows {code : Run α} (hc : NarrowsWorker G code) {P : TxPart → Prop}
    (hs : Stable P) (hP : ∀ p w inProcess, P p → Narrows p.worker w →
    P { p with worker := w, inProcess := inProcess }) (h : P f.txPart) :
    (txsOutline G).Wp .main (fun _ f => P f.txPart) code f := by
  refine wp_of_within hc (fun f f' hn hi => main_txs.step ?_)
    (fun _ _ hf hr => hs _ _ hf hr) (fun f f' hf hi hn => ?_) h
  · obtain ⟨w, inProcess, he, hw⟩ := hn.txPart
    obtain ⟨ht, ha⟩ := hw hi.custody.tidy
    rw [he]
    exact hi.narrow ht ha inProcess
  · obtain ⟨w, inProcess, he, hw⟩ := hn.txPart
    rw [he]
    exact hP _ w inProcess hf (hw hi.custody.tidy).2

lemma restarted_narrow {p : TxPart} {w : Worker} {inProcess : Option Hash}
    (h : p.Restarted) (hn : Narrows p.worker w) :
    TxPart.Restarted { p with worker := w, inProcess := inProcess } := by
  refine ⟨⟨⟨h.toProcess, h.processBusy⟩, h.toStore, h.storing⟩, h.discarded, ?_⟩
  rw [hn.reorged]
  exact h.reorged

abbrev EndsReady (G : TxTracker → Prop) (again : Bool) {α : Type} (code : Run α)
    (f : Finalizer) : Prop := (txsOutline G).Wp .main (fun _ f => f.txPart.Ready again) code f

lemma wp_narrowsReady {code : Run α} (hc : NarrowsWorker G code) (h : f.txPart.Ready ag) :
    EndsReady G ag code f :=
  wp_narrows hc (stable_ready ag)
    (fun _ _ _ hp hn => ⟨hp.fresh, fun ha =>
      restarted_narrow (hp.restarted ha) hn⟩) h

/-! ### Closing and opening L2 blocks and batches -/

structure Closing (block : PendingL2Block) (p : TxPart) : Prop where
  wipL2Block : p.wipL2Block = some block
  passedOn : p.passedOn = false

lemma stable_closingTxs (blk : PendingL2Block) : Stable (Closing blk) :=
  fun _ _ hp hr =>
    ⟨hr.wipL2Block.trans hp.wipL2Block, hr.passedOn.trans hp.passedOn⟩

lemma stable_passedOn : Stable fun p => p.passedOn = true := fun _ _ hp hr => hr.passedOn.trans hp

lemma wp_addToProcess_txs {blk : PendingL2Block} (h : Closing blk f.txPart) : (txsOutline G).Wp
    .main (fun _ f => f.txPart.passedOn = true) (addPendingL2BlockToProcess blk) f :=
  main_txs.modify (Q := fun p => p.passedOn = true) (stable_closingTxs blk) h
    fun _ hP hi => ⟨hi.send hP.wipL2Block hP.passedOn, rfl⟩

/-- The L2 block in progress can be closed; if it has a batch, then `R` is known. -/
structure Closable (R : Prop) (p : TxPart) : Prop extends p.Ready false where
  placed : ∀ block, p.wipL2Block = some block → block.batch ≠ none → R

lemma stable_closable (R : Prop) : Stable (Closable R) := by
  intro p p' hp hr
  refine ⟨stable_ready false p p' hp.toReady hr, ?_⟩
  rw [hr.wipL2Block]
  exact hp.placed

lemma wp_closeL2Block_txs {R : Prop} (h : Closable R f.txPart) :
    (txsOutline G).Wp .main (fun _ f => f.txPart.wipL2Block = none ∧ R) closeWIPL2Block f := by
  refine (main_txs.look (stable_closable R) h).seq fun blk f hf => ?_
  obtain ⟨hd, hl⟩ := hf
  have hb : f.txPart.wipL2Block = some blk := deref_ok_iff.mp hl
  have hc : Closing blk f.txPart := ⟨hb, hd.toReady.passedOn hb⟩
  refine (main_txs.keeps (stable_closingTxs blk) ?_ hc).seq fun _ f hf => ?_
  · refine within_action (fun _ _ _ => trivial) fun f a f' hf => ?_
    obtain ⟨wip, -, -, rfl⟩ := bind_pair_inj hf
    rfl
  refine (main_txs.keeps (stable_closingTxs blk) (stays_await _).leavesTxs hf).seq fun _ f hf => ?_
  refine (wp_addToProcess_txs hf).seq fun _ f hf => ?_
  refine (main_txs.look stable_passedOn hf).seq fun r f hf => ?_
  obtain ⟨hf, ht⟩ := hf
  have hr : R := by
    refine hd.placed blk hb ?_
    rw [deref_ok_iff.mp ht]
    exact nofun
  refine wp_ask fun sync => ?_
  refine (main_txs.keeps stable_passedOn (within_when stays_syncStateRoot.leavesTxs) hf).seq
    fun _ f hf => ?_
  refine main_txs.modify (Q := fun p => p.wipL2Block = none ∧ R) stable_passedOn hf
    fun f hP hi => ⟨hi.closeWip hP, rfl, hr⟩

lemma leavesTxs_closeWIPBatch : LeavesTxs closeWIPBatch := by
  refine (stays_lookBatch _).leavesTxs.bind fun wip => ?_
  split_ifs
  · exact stays_emptyClosed.leavesTxs.bind fun _ => stays_halt.leavesTxs
  · exact Within.bind (leavesTxs_modify fun _ => rfl) fun _ => trivial

/-- Before `closeAndOpenNewWIPBatch`: if the finalizer restarts, the L2 block has no batch yet. -/
structure Crossing (again : Bool) (p : TxPart) : Prop extends p.Ready again where
  unplaced : again = true → ∀ block, p.wipL2Block = some block → block.batch = none

lemma stable_crossing (ag : Bool) : Stable (Crossing ag) := by
  intro p p' hp hr
  refine ⟨stable_ready ag p p' hp.toReady hr, ?_⟩
  rw [hr.wipL2Block]
  exact hp.unplaced

/-- In `closeAndOpenNewWIPBatch`: if there are forced batches, the L2 block is closed. -/
structure Between (again forced : Bool) (p : TxPart) : Prop extends p.Ready again where
  closed : forced = true → p.wipL2Block = none

lemma stable_between (ag fb : Bool) : Stable (Between ag fb) := by
  intro p p' hp hr
  refine ⟨stable_ready ag p p' hp.toReady hr, ?_⟩
  rw [hr.wipL2Block]
  exact hp.closed

/-- A block without a batch is not closed for forced batches: there `closeWIPL2Block` does
not return. -/
lemma wp_closeForNextBatch_txs (fb : Bool) (h : Crossing ag f.txPart) : (txsOutline G).Wp .main
    (fun _ f => Between ag fb f.txPart) (closeForNextBatch cfg fb) f := by
  rcases fb with _ | _
  · have hb : Between ag false f.txPart := ⟨h.toReady, nofun⟩
    exact (main_txs.keeps (stable_between ag false) (stays_lookBatch _).leavesTxs
      hb).seq fun _ _ hf => hf
  have hc : Closable (ag = false) f.txPart := by
    refine ⟨⟨h.fresh, nofun⟩, fun blk hl ha => ?_⟩
    cases ag with
    | false => rfl
    | true => exact absurd (h.unplaced rfl blk hl) ha
  refine (wp_closeL2Block_txs hc).seq fun _ f hf => ?_
  obtain ⟨hn, rfl⟩ := hf
  have hb : Between false true f.txPart := ⟨⟨fun _ => hn, nofun⟩, fun _ => hn⟩
  refine (main_txs.keeps (stable_between false true) stays_waitL2Blocks.leavesTxs
    hb).seq fun _ f hf => ?_
  refine (main_txs.keeps (stable_between false true) (stays_lookBatch _).leavesTxs hf).seq
    fun sip f hf => ?_
  refine (main_txs.keeps (stable_between false true)
    (leavesTxs_of_unclosed (unclosed_finalizeSIP cfg)) hf).seq fun closed f hf => ?_
  exact (main_txs.keeps (stable_between false true) (within_when stays_fatal.leavesTxs)
    hf).seq fun _ f hf => hf

lemma narrows_lastBatch (hG : Identifies G) (fb : Bool) (last : UInt64)
    (root : Hash) : NarrowsWorker G (lastBatch fb last root) := by
  have hs : ∀ f f' : Finalizer, f'.txPart = f.txPart → NarrowsTxs G f f' := fun f f' he =>
    ⟨f.worker, f.inProcess, he, fun ht => ⟨ht, .refl _⟩⟩
  refine within_lastBatch (fun f _ _ _ => hs f _ rfl) (within_processForcedBatch (fun tx =>
    narrows_callWorker fun w r ht hr => ?_) (fun tx => narrows_callWorker fun w r ht hr => ?_) fun f
    _ => hs f _ rfl) fb last root
  · cases hr
    obtain ⟨hi, hn, -⟩ := modifyQueue_tidy hG ht tx.2 (keepsTxs_addForcedTx tx.1)
    exact ⟨hi, hn⟩
  cases hr
  obtain ⟨hi, hn, -⟩ := modifyQueue_tidy hG ht tx.2 (keepsTxs_deleteForcedTx tx.1)
  exact ⟨hi, hn⟩

variable {args : NewL2BlockArgs}

lemma wp_runOpenBlock_txs (h : f.txPart.Opens ag) : EndsReady G ag (.run args) f :=
  wp_run ag (fun _ hr => ⟨rfl, stable_opens ag _ _ h hr⟩) fun _ hf => hf

lemma wp_initL2Block_txs (h : f.txPart.Opens ag) : EndsReady G ag initWIPL2Block f := by
  refine wp_ask fun ra => ?_
  cases ra with
  | none => trivial
  | some t => exact wp_runOpenBlock_txs h

lemma wp_setBlockBatch {g : Finalizer → Except Fault (Unit × Finalizer)}
    (hg : ∀ f f', g f = .ok ((), f') → f'.txPart = f.txPart ∨ ∃ blk blk',
    f.wipL2Block = some blk ∧ blk'.txHashes = blk.txHashes ∧
    f'.txPart = { f.txPart with wipL2Block := some blk' })
    (h : f.txPart.Ready ag) :
    EndsReady G ag (.act g) f := by
  refine main_txs.act (Q := fun _ => Ready ag) (stable_ready ag) h fun f a f' hP hi hf => ?_
  rcases hg f f' hf with he | ⟨blk, blk', hb, ht, he⟩
  · rw [he]
    exact ⟨⟨hi, .of_eq rfl rfl rfl rfl, ⟨rfl⟩⟩, hP⟩
  have hp := hP.passedOn hb
  rw [he]
  refine ⟨hi.changeWip hb hp ht, fun hpa => ?_, fun ha => (hP.restarted ha).setWip _ _⟩
  exact absurd (hp.symm.trans hpa) nofun

lemma wp_carryL2Block_txs (h : f.txPart.Ready ag) : EndsReady G ag carryL2Block f := by
  refine wp_setBlockBatch (fun f f' hf => ?_) h
  rcases hb : f.wipL2Block with _ | blk
  · simp only [hb] at hf
    cases hf
    exact .inl rfl
  simp only [hb] at hf
  obtain ⟨wip, -, hf⟩ := ok_of_bind hf
  split_ifs at hf
  cases hf
  exact .inr ⟨blk, { blk with batch := some wip.1 }, rfl, rfl, rfl⟩

lemma wp_reopenBatch_txs (hG : Identifies G) (h : Crossing ag f.txPart) :
    EndsReady G ag (closeAndOpenNewWIPBatch cfg) f := by
  refine (main_txs.keeps (stable_crossing ag) (within_action (fun _ _ _ => trivial)
    fun f fb f' hf => ?_) h).seq fun fb f hf => ?_
  · cases hf
    rfl
  have hs := stable_between ag fb
  refine (wp_closeForNextBatch_txs fb hf).seq fun sr f hf => ?_
  refine (main_txs.keeps hs leavesTxs_closeWIPBatch hf).seq fun number f hf => ?_
  refine (main_txs.keeps hs (within_when (leavesTxs_of_unclosed
    (unclosed_haltOnBatch cfg))) hf).seq fun _ f hf => ?_
  refine (wp_narrows (narrows_lastBatch hG fb number sr) hs
    (fun p w inProcess hp hn => ?_) hf).seq fun last f hf => ?_
  · exact ⟨⟨hp.fresh, fun ha => restarted_narrow (hp.restarted ha) hn⟩, hp.closed⟩
  refine (main_txs.keeps hs ?_ hf).seq fun _ f hf => ?_
  · exact leavesTxs_modify fun _ => rfl
  cases fb with
  | false => exact wp_carryL2Block_txs hf.toReady
  | true => exact wp_initL2Block_txs ⟨wipTxs_none (hf.closed rfl), hf.restarted⟩

lemma wp_placeNewL2Block_txs (hG : Identifies G) {resp : ProcessBatchResponse}
    (h : f.txPart.Placing ag) : EndsReady G ag (placeNewL2Block cfg resp) f := by
  refine (main_txs.act (Q := fun _ => Placing ag) (stable_placing ag) h
    fun f fits f' hP hi hf => ?_).seq fun fits f hf => ?_
  · obtain ⟨r, b, b', blk, blk', -, -, -, hb, ht, hx, rfl⟩ := takeNewL2Block_ok hf
    have hH : blk'.txHashes = blk.txHashes := by
      rw [PendingL2Block.txHashes, hx, PendingL2Block.txHashes]
    refine ⟨hi.changeWip hb hP.passedOn hH, hP.passedOn, fun c hc => ?_,
      fun ha => (hP.restarted ha).setWip _ _⟩
    cases hc
    exact ht.trans (hP.unplaced blk hb)
  refine (wp_when (Q := fun _ f => f.txPart.Ready ag) (fun _ => ?_) fun _ =>
    hf.ready).seq fun _ f hf => ?_
  · exact wp_reopenBatch_txs hG ⟨hf.ready, fun _ => hf.unplaced⟩
  refine wp_setBlockBatch (fun f f' hf => ?_) hf
  obtain ⟨blk, hb, -, rfl⟩ := bind_pair_inj hf
  exact .inr ⟨blk, { blk with batch := f.wipBatch }, deref_ok_iff.mp hb, rfl, rfl⟩

lemma wp_openL2Block_txs (hG : Identifies G) (h : f.txPart.Opens ag) :
    EndsReady G ag (openNewWIPL2Block cfg args) f := by
  refine wp_ask fun inp => ?_
  refine (main_txs.modify (Q := Placing ag) (stable_opens ag) h
    fun f hP hi => ?_).seq fun _ f hf => ?_
  · refine ⟨hi.openWip hP.wipTxs rfl, rfl, fun blk hb => ?_, fun ha => (hP.restarted ha).setWip _ _⟩
    cases hb
    rfl
  refine (main_txs.keeps (stable_placing ag) (stays_lookBatch _).leavesTxs hf).seq fun _ f hf => ?_
  refine wp_ask fun ans => ?_
  rcases ans with _ | res
  · exact wp_haltTxs
  dsimp only
  split_ifs
  · exact wp_haltTxs
  · exact wp_placeNewL2Block_txs hG hf

lemma opens_of_closed {p : TxPart} (h : p.wipL2Block = none) : p.Opens false :=
  ⟨wipTxs_none h, nofun⟩

lemma wp_finalizeL2Block_txs (h : f.txPart.Ready false) :
    EndsReady G false finalizeWIPL2Block f := by
  refine (main_txs.keeps (stable_ready false)
    (stays_deref other_nilPointer _).leavesTxs h).seq fun blk f hf => ?_
  have hc : Closable True f.txPart := ⟨hf, fun _ _ _ => trivial⟩
  refine (wp_closeL2Block_txs hc).seq fun _ f hf => ?_
  exact wp_runOpenBlock_txs (opens_of_closed hf.1)

lemma wp_finalizeBatch_txs (hG : Identifies G) (h : f.txPart.Ready false) :
    EndsReady G false (finalizeWIPBatch cfg) f := by
  refine (main_txs.keeps (stable_ready false)
    (stays_deref other_nilPointer _).leavesTxs h).seq fun blk f hf => ?_
  have hs : Closable True f.txPart := ⟨hf, fun _ _ _ => trivial⟩
  refine (wp_when (Q := fun _ f => f.txPart.Ready false) (fun _ => (wp_closeL2Block_txs hs).mono fun
    _ f hf => ?_) fun _ => hf).seq fun _ f hf => ?_
  · exact ⟨fun _ => hf.1, nofun⟩
  refine (wp_reopenBatch_txs hG ⟨hf, nofun⟩).seq fun _ f hf => ?_
  refine (main_txs.look (stable_ready false) hf).seq fun closed f hf => ?_
  obtain ⟨hr, hl⟩ := hf
  refine wp_when (fun hc => ?_) fun _ => hr
  refine wp_runOpenBlock_txs (opens_of_closed ?_)
  rw [← Except.ok.inj hl] at hc
  exact Option.isNone_iff_eq_none.mp hc

/-! ### Reorgs -/

lemma leavesTxs_initBatch : LeavesTxs (initWIPBatch cfg) := by
  refine Within.bind (stays_deref other_fatal _).leavesTxs fun row => ?_
  split_ifs
  · refine within_action (fun _ _ _ => trivial) fun f a f' hf => ?_
    obtain ⟨prev, -, hf⟩ := ok_of_bind hf
    obtain ⟨wip, -, -, rfl⟩ := bind_pair_inj hf
    rfl
  · exact stays_halt.leavesTxs
  · exact leavesTxs_modify fun _ => rfl

/-- The goroutines are idle when the transactions are restored. -/
structure Halting (p : TxPart) : Prop extends p.Ready false, p.Idle

lemma stable_halting : Stable Halting :=
  fun p p' hp hr => ⟨stable_ready false p p' hp.toReady hr, hr.idle hp.toIdle⟩

lemma discardedTxs_eq (h : f.txPart.Ready false) :
    f.discardedTxs = f.txPart.discarded.flatMap PendingL2Block.txHashes ++ f.txPart.wipTxs := by
  rw [discardedTxs, flatMap_append]
  cases hb : f.wipL2Block with
  | none =>
    rw [wipTxs_none hb]
    rfl
  | some blk =>
    rw [wipTxs_eq hb (h.passedOn hb)]
    exact congrArg _ (append_nil _)

lemma wp_restoreTxs_txs (hG : Identifies G) (h : Halting f.txPart) :
    (txsOutline G).Wp .main (fun _ f => f.txPart.Opens true) (restoreTxsPendingToStore cfg) f := by
  refine wp_ask fun visits => wp_ask fun state => ?_
  refine main_txs.act (Q := fun _ => TxPart.Opens true) stable_halting h fun f a f' hP hi hf => ?_
  obtain ⟨r, hc, hf⟩ := ok_of_bind hf
  obtain ⟨r', hrs, hr⟩ := Outcome.ok_of_bind (returned_ok_iff.mp hc)
  cases hr
  cases hf
  obtain ⟨hs, hre⟩ := hi.restore hG hP.toIdle hrs f.discardedTxs
  refine ⟨hs, wipTxs_passedOn rfl, fun _ => ⟨⟨⟨hP.toProcess, hP.processBusy⟩,
    hP.toStore, hP.storing⟩, rfl, ?_⟩⟩
  have he : r'.1.reorgedTxs.map TxTracker.hash = f.discardedTxs :=
    hre.trans (discardedTxs_eq hP.toReady).symm
  exact he ▸ Subset.refl _

variable (trace : List Event)

lemma reorgsOf_concat (drop back : List Hash) :
    reorgsOf (trace ++ [.reorged drop back]) = reorgsOf trace ++ [(drop, back)] := by
  simp [reorgsOf]

lemma storedTxs_concat (ev : Event) :
    storedTxs (trace ++ [ev]) = storedTxs trace ++ storedTxs [ev] := by
  simp [storedTxs]

lemma wp_restarted_txs (h : f.txPart.Ready true) : EndsReady G false (.modify fun f => { f with
    l2BlockReorg := false
    trace := f.trace ++ [.reorged f.reorged f.worker.offeredTxs] }) f := by
  refine main_txs.modify (Q := Ready false) (stable_ready true) h
    fun f hP hi => ⟨?_, hP.fresh, nofun⟩
  have hr := hP.restarted rfl
  have ho : f.reorged ⊆ f.worker.offeredTxs := by
    rw [offeredTxs, map_append]
    exact fun h hm => mem_append_right _ (hr.reorged hm)
  have hs := hi.restarted hr.toIdle hr.discarded ho
  simp only [txPart, reorgsOf_concat, storedTxs_concat] at hs ⊢
  simpa only [storedTxs, flatMap_cons, flatMap_nil, append_nil] using hs

lemma wp_restartBatch_txs (hG : Identifies G) (h : Halting f.txPart) :
    EndsReady G false (restartBatch cfg) f := by
  refine (wp_restoreTxs_txs hG h).seq fun _ f hf => ?_
  refine (main_txs.keeps (stable_opens true) leavesTxs_initBatch hf).seq fun _ f hf => ?_
  exact (wp_initL2Block_txs hf).seq fun _ f hf => wp_restarted_txs hf

lemma wp_waitL2Blocks_txs (h : f.txPart.Ready false) :
    (txsOutline G).Wp .main (fun _ f => Halting f.txPart) waitPendingL2Blocks f := by
  refine (wp_await (Q := fun _ f => f.txPart.Ready false ∧ f.txPart.ProcessIdle)
    fun f' hr _ hd => ?_).seq fun _ f hf => ?_
  · obtain ⟨hP, hb⟩ := Bool.and_eq_true_iff.mp hd
    exact ⟨stable_ready false _ _ h hr, isEmpty_iff.mp hP, Bool.not_eq_true' _ ▸ hb⟩
  refine wp_await fun f' hr _ hd => ?_
  obtain ⟨ht, hs⟩ := Bool.and_eq_true_iff.mp hd
  exact ⟨stable_ready false _ _ hf.1 hr, (hr.processIdle hf.2).1,
    isEmpty_iff.mp ht, Option.isNone_iff_eq_none.mp hs⟩

lemma wp_l2Reorg_txs (hG : Identifies G) (h : f.txPart.Ready false) :
    EndsReady G false (processL2BlockReorg cfg) f := by
  refine (wp_waitL2Blocks_txs h).seq fun _ f hf => ?_
  refine (main_txs.keeps stable_halting
    (leavesTxs_of_unclosed (unclosed_closePrev cfg)) hf).seq fun closed f hf => ?_
  exact wp_when (fun _ => wp_restartBatch_txs hG hf) fun _ => hf.toReady

lemma wp_bestFit_txs (h : f.txPart.Ready false) : (txsOutline G).Wp .main
    (fun best f => f.txPart.Ready false ∧ ∀ tx, best = .ok tx → f.txPart.Offered tx)
    getBestFittingTx f := by
  refine wp_ask fun ngr => wp_ask fun sc => ?_
  refine (main_txs.keeps (stable_ready false) (stays_lookBatch _).leavesTxs h).seq
    fun wip f hf => ?_
  refine main_txs.act (Q := fun best p => p.Ready false ∧ ∀ tx, best = Except.ok tx → p.Offered tx)
    (stable_ready false) hf fun f a f' hP hi hf => ?_
  obtain ⟨⟨w, best⟩, hc, hf⟩ := ok_of_bind hf
  cases hf
  obtain ⟨hd, hq, hp, hr⟩ := bestFit_tidy hi.custody.tidy (returned_ok_iff.mp hc)
  refine ⟨hi.best hd hq hp _, ⟨hP.fresh, nofun⟩, fun tx ht => ⟨?_, ?_⟩⟩
  · have hb : best = .ok tx := ht
    show best.toOption.map TxTracker.hash ≠ none
    rw [hb]
    exact nofun
  · exact hr tx ht

variable {tx : TxTracker}

section
variable (hG : Identifies G)
include hG

variable {rs : ExecutedTx}

lemma wp_acceptTx_txs (h : f.txPart.Ready false ∧ f.txPart.Offered tx) :
    EndsReady G false (acceptTx tx rs) f := by
  refine main_txs.act (Q := fun _ => Ready false) (stable_offered tx) h fun f a f' hP hi hf => ?_
  obtain ⟨wip, -, hf⟩ := ok_of_bind hf
  obtain ⟨blk, hb, hf⟩ := ok_of_bind hf
  obtain ⟨w, hm, -, rfl⟩ := bind_pair_inj hf
  obtain ⟨hr, ho⟩ := hP
  obtain ⟨t, ht, hh⟩ := ho.ready
  have hw : f.txPart.wipL2Block = some blk := deref_ok_iff.mp hb
  have hp := hr.passedOn hw
  have hx : PendingL2Block.txHashes { blk with
      toL2Block := blk.addTx ⟨tx, rs.rawTx, rs.egpPercentage⟩ } = blk.txHashes ++ [tx.hash] := by
    simp [PendingL2Block.txHashes, L2Block.addTx]
  refine ⟨hi.accept hG hw hp ht hh hx (returned_ok_iff.mp hm), fun ha => ?_, fun h => by cases h⟩
  cases hp.symm.trans ha

lemma narrows_deleteTx (tx : TxTracker) : NarrowsWorker G (callWorker fun w =>
    (w.deleteTx tx.hash tx.fromAddr).bind fun w => .ok (w, ())) := by
  refine narrows_callWorker fun w r ht hr => ?_
  obtain ⟨w', hd, hr⟩ := Outcome.ok_of_bind hr
  cases hr
  exact deleteTx_tidiesTo hG ht _ _ w' hd

lemma wp_handleTxResp_txs (h : f.txPart.Ready false ∧ f.txPart.Offered tx) :
    EndsReady G false (handleProcessTransactionResponse cfg tx rs) f := by
  refine (main_txs.keeps (stable_offered tx) (within_action (fun _ _ _ => trivial)
    fun f a f' hf => ?_) h).seq fun taken f hf => ?_
  · obtain ⟨wip, -, -, rfl⟩ := bind_pair_inj hf
    rfl
  split_ifs
  · refine (wp_acceptTx_txs hG hf).seq fun _ f hf => ?_
    refine (wp_narrowsReady (narrows_callWorker fun w r ht hr => ?_) hf).seq fun _ f hf => ?_
    · exact updateAfterTx_tidiesTo hG ht _ _ r hr
    refine main_txs.keeps (stable_ready false) (within_action (fun _ _ _ => trivial)
      fun f a f' hf => ?_) hf
    obtain ⟨wip, -, -, rfl⟩ := bind_pair_inj hf
    rfl
  · exact wp_narrowsReady (narrows_deleteTx hG tx) hf.1
  refine wp_narrowsReady (narrows_callWorker fun w r ht hr => ?_) hf.1
  cases hr
  exact updateTxZKCounters_tidy hG ht _ _ _ _

lemma wp_processTx_txs (h : f.txPart.Ready false ∧ f.txPart.Offered tx) :
    EndsReady G false (processTransaction cfg tx) f := by
  refine wp_ask fun ans => ?_
  have ha : EndsReady G false (handleTxAnswer cfg tx ans) f := by
    cases ans with
    | failed => exact h.1
    | invalid => exact wp_narrowsReady (narrows_deleteTx hG tx) h.1
    | notReady nonce balance =>
      refine (wp_narrowsReady (narrows_callWorker fun w r ht hr => ?_) h.1).seq fun _ _ hf => hf
      exact moveTxToNotReady_tidiesTo hG ht _ _ _ _ r hr
    | executed rs => exact wp_handleTxResp_txs hG h
  refine ha.seq fun _ f hf => ?_
  refine wp_narrowsReady (within_modify fun f => ?_) hf
  exact ⟨f.worker, none, rfl, fun ht => ⟨ht, .refl _⟩⟩

lemma wp_finalizeBatches_txs (h : f.txPart.Ready false) :
    EndsReady G false (finalizeBatches cfg) f := by
  have hs : ∀ {α : Type} {g : Finalizer → Except Fault α}, Stays (.look g) →
      MainKeeps (txsOutline G) (fun f => f.txPart.Ready false) (.look g) :=
    fun hc _ h => main_txs.keeps (stable_ready false) hc.leavesTxs h
  refine mainKeeps_finalizeBatches (J := fun f => f.txPart.Ready false) (fun f h => ?_) (fun _ =>
    wp_l2Reorg_txs hG) (fun _ => wp_finalizeL2Block_txs) hs (fun _ => wp_bestFit_txs) (fun _ h _ =>
    wp_finalizeBatch_txs hG h) (fun tx _ h ho => wp_processTx_txs hG ⟨h, ho tx rfl⟩)
    (mainKeeps_checkBatch hs fun _ => wp_finalizeBatch_txs hG) f h
  exact (hs (stays_lookField _) f h).mono fun _ _ h => ⟨h, fun _ => h⟩
end

lemma wp_start_txs (h : f.txPart.Opens false) : EndsReady G false (Finalizer.start cfg) f := by
  refine (main_txs.keeps (stable_opens false) leavesTxs_initBatch h).seq fun _ f hf => ?_
  refine (wp_initL2Block_txs hf).seq fun _ f hf => ?_
  refine main_txs.keeps (stable_ready false) ?_ hf
  exact leavesTxs_modify fun _ => rfl
end

/-! ## Processing L2 blocks -/

section
variable {G : TxTracker → Prop} {f : Finalizer} {blk : PendingL2Block}

structure Processing (block : PendingL2Block) (p : TxPart) : Prop where
  busy : p.processBusy = true
  processing : p.processing = some block

structure Discarding (block : PendingL2Block) (p : TxPart) : Prop extends Processing block p where
  reorg : p.l2BlockReorg = true

structure Executing (block : PendingL2Block) (p : TxPart) : Prop extends Processing block p where
  discarded : p.discarded = []

structure Processed (p : TxPart) : Prop where
  busy : p.processBusy = true
  processing : p.processing = none

/-- The other goroutines leave what the one that processes L2 blocks knows. -/
def ProcessStable (P : TxPart → Prop) : Prop := ∀ p p', P p → p.ProcessRely p' → P p'

lemma processStable_processing (blk : PendingL2Block) : ProcessStable (Processing blk) :=
  fun _ _ hp hr =>
    ⟨hr.processBusy.trans hp.busy, hr.processing.trans hp.processing⟩

lemma processStable_discarding (blk : PendingL2Block) : ProcessStable (Discarding blk) :=
  fun p p' hp hr => ⟨processStable_processing blk p p' hp.toProcessing hr,
    (hr.reorg hp.busy).trans hp.reorg⟩

lemma processStable_executing (blk : PendingL2Block) : ProcessStable (Executing blk) :=
  fun p p' hp hr => ⟨processStable_processing blk p p' hp.toProcessing hr,
  hr.discarded hp.discarded⟩

lemma processStable_processed : ProcessStable Processed :=
  fun _ _ hp hr =>
    ⟨hr.processBusy.trans hp.busy, hr.processing.trans hp.processing⟩

lemma process_txs : (txsOutline G).Party .process txPart (Inv G) TxPart.ProcessRely
    (TxPart.ProcessStep G) where
  sees := sees_txPart
  inv h := h
  rely h := h
  step h := by
    refine ⟨h.inv, fun j hj => ?_⟩
    cases j with
    | main => exact h.main
    | process => exact absurd rfl hj
    | store => exact h.store
    | _ => trivial
  expected _ := trivial

lemma txPart_propagate {f' : Finalizer} {r : BatchRef} {b : HeapBatch}
    (h : f.propagate r b = .ok f') : f'.txPart = f.txPart := by
  rcases propagate_ok h with ⟨-, rfl⟩ | ⟨p, pip, -, -, ⟨-, rfl⟩ | ⟨-, rfl⟩⟩
  · rfl
  · rfl
  · simp [txPart, setBatch, storedTxs, reorgsOf]

lemma txPart_takeResp {f' : Finalizer} {r : BatchRef} {root : Hash}
    {ans : Option ProcessBatchResponse} {res : Option PendingL2Block}
    (h : f.takeResponse r blk root ans = .ok (res, f')) :
    f'.txPart = f.txPart ∧ ∀ blk', res = some blk' → blk'.txHashes = blk.txHashes := by
  obtain ⟨b, b', -, -, -, hf⟩ := takeResp_ok h
  rcases hf with ⟨rfl, -, rfl⟩ | ⟨_, _, rfl, -, rfl⟩
  · exact ⟨by simp [txPart, setBatch, storedTxs, reorgsOf], nofun⟩
  refine ⟨by simp [txPart, setBatch, storedTxs, reorgsOf], fun blk' hb => ?_⟩
  cases hb
  rfl

lemma wp_processL2Block_txs (h : Executing blk f.txPart) :
    (txsOutline G).Wp .process (fun processed f => if processed then Processed f.txPart
    else Processing blk f.txPart) (processL2Block blk) f := by
  have hs := processStable_executing blk
  refine (process_txs.keeps hs (stays_deref other_nilPointer _).leavesTxs h).seq fun r f hf => ?_
  refine (process_txs.keeps hs (within_action (fun _ _ _ => trivial)
    fun f root f' hf => ?_) hf).seq fun root f hf => ?_
  · obtain ⟨b, -, hf⟩ := ok_of_bind hf
    obtain ⟨g, hg, hf⟩ := ok_of_bind hf
    obtain ⟨pip, -, -, rfl⟩ := bind_pair_inj hf
    exact txPart_propagate hg
  refine wp_ask fun ans => ?_
  refine (process_txs.act (Q := fun rs p => Executing blk p ∧ ∀ blk', rs = some blk' → blk'.txHashes
    = blk.txHashes) hs hf fun f rs f' hP hi hf => ?_).seq fun rs f hf => ?_
  · obtain ⟨hq, hr⟩ := txPart_takeResp hf
    rw [hq]
    exact ⟨⟨hi, .refl _, ⟨rfl⟩⟩, hP, hr⟩
  obtain ⟨he, hr⟩ := hf
  rcases rs with _ | blk'
  · exact he.toProcessing
  refine (process_txs.keeps hs (stays_await _).leavesTxs he).seq fun _ f hf => ?_
  refine (process_txs.modify (Q := Processed) hs hf fun f hP hi => ?_).seq fun _ f hf => hf
  exact ⟨hi.toStore hP.busy hP.processing hP.discarded (hr blk' rfl), hP.busy, rfl⟩

lemma wp_discardL2Block_txs (h : Discarding blk f.txPart) :
    (txsOutline G).Wp .process (fun _ f => Processed f.txPart) (discardL2Block blk) f :=
  process_txs.modify (Q := Processed) (processStable_discarding blk) h
    fun _ hP hi => ⟨hi.discard hP.busy hP.processing hP.reorg, hP.busy, rfl⟩

lemma wp_detectReorg_txs (h : Processing blk f.txPart) :
    (txsOutline G).Wp .process (fun _ f => Processed f.txPart) (detectL2BlockReorg blk) f := by
  refine (process_txs.act (Q := fun wr p => wr = false → Discarding blk p) (processStable_processing
    blk) h fun f wr f' hP hi hf => ?_).seq fun wr f hf => ?_
  · cases hf
    refine ⟨hi.detectReorg hP.busy _, fun hl => ⟨⟨hP.busy, hP.processing⟩, ?_⟩⟩
    show (f.l2BlockReorg || !f.lastL2BlockWasReorg) = true
    rw [hl]
    exact Bool.or_true _
  cases wr with
  | true => exact wp_haltTxs.seq fun _ _ h => h
  | false => exact wp_discardL2Block_txs (hf rfl)

lemma wp_handlePendingL2Block_txs (h : Processing blk f.txPart) :
    (txsOutline G).Wp .process (fun _ f => Processed f.txPart) (handlePendingL2Block blk) f := by
  refine (wp_look (Q := fun reorged f => Processing blk f.txPart ∧
    (reorged = true → f.txPart.l2BlockReorg = true) ∧ (reorged = false → f.txPart.discarded = []))
    (fun _ _ _ _ _ => trivial) fun f' reorged hrl hi hl => ?_).seq fun reorged f hf => ?_
  · cases hl
    exact ⟨processStable_processing blk _ _ h hrl, fun hr => hr, hi.discarded⟩
  obtain ⟨hp, hr, hd⟩ := hf
  cases reorged with
  | true => exact wp_discardL2Block_txs ⟨hp, hr rfl⟩
  | false =>
    refine (wp_processL2Block_txs ⟨hp, hd rfl⟩).seq fun processed f hf => ?_
    cases processed with
    | true =>
      refine process_txs.keeps processStable_processed ?_ hf
      exact leavesTxs_modify fun _ => rfl
    | false => exact wp_detectReorg_txs hf

lemma wp_processL2Blocks_txs (h : f.processBusy = false) :
    (txsOutline G).Wp .process (fun _ f => f.processBusy = false) processPendingL2Blocks f := by
  have hs : ProcessStable fun p => p.processBusy = false := fun _ _ hp hr => hr.processBusy.trans hp
  refine (process_txs.act (Q := Processing) hs h fun f blk f' hP hi hf => ?_).seq fun blk f hf => ?_
  · obtain ⟨first, hh, rfl, rfl⟩ := bind_pair_inj hf
    exact ⟨hi.takeToProcess hP (deref_ok_iff.mp hh), rfl, rfl⟩
  refine (wp_handlePendingL2Block_txs hf).seq fun _ f hf => ?_
  exact process_txs.modify (Q := fun p => p.processBusy = false) processStable_processed hf
    fun f hP hi => ⟨hi.processed hP.busy hP.processing, rfl⟩
end

section
variable {G : TxTracker → Prop} {cfg : FinalizerCfg} {f : Finalizer} {blk : PendingL2Block}

lemma store_txs : (txsOutline G).Party .store txPart (Inv G) TxPart.StoreRely
    (TxPart.StoreStep G) where
  sees := sees_txPart
  inv h := h
  rely h := h
  step h := by
    refine ⟨h.inv, fun j hj => ?_⟩
    cases j with
    | main => exact h.main
    | process => exact h.process
    | store => exact absurd rfl hj
    | _ => trivial
  expected _ := trivial

lemma stable_storingTxs (storing : Option Storing) (p p' : TxPart) (h : p.storing = storing)
    (hr : p.StoreRely p') : p'.storing = storing :=
  hr.storing.trans h

lemma wp_keepsStore {α : Type} {code : Run α} {storing : Option Storing}
    (hc : LeavesTxs code) (h : f.storing = storing) :
    (txsOutline G).Wp .store (fun _ f => f.txPart.storing = storing) code f :=
  store_txs.keeps (stable_storingTxs storing) hc h

lemma wp_deletePendingTx_txs (hG : Identifies G) {tx : BlockTx} {rest : List Hash}
    (h : f.txPart.storing = some ⟨blk, true, tx.hash :: rest⟩) : (txsOutline G).Wp .store
    (fun _ f => f.txPart.storing = some ⟨blk, true, rest⟩) (deleteStored tx) f := by
  refine store_txs.act (Q := fun _ p => p.storing = some ⟨blk, true, rest⟩)
    (stable_storingTxs _) h fun f a f' hP hi hf => ?_
  obtain ⟨r, hc, hf⟩ := ok_of_bind hf
  obtain ⟨w, hd, hr⟩ := Outcome.ok_of_bind (returned_ok_iff.mp hc)
  cases hr
  cases hf
  have hsr : f.storing = some ⟨blk, true, tx.hash :: rest⟩ := hP
  have hs := hi.delete hG hP hd
  simp only [txPart, hsr, Option.map_some, tail_cons] at hs ⊢
  exact ⟨hs, trivial⟩

lemma wp_storeL2Block_txs (hG : Identifies G)
    (h : f.txPart.storing = some ⟨blk, false, blk.txHashes⟩) : (txsOutline G).Wp .store
    (fun _ f => f.txPart.storing = some ⟨blk, true, []⟩) (storeL2Block cfg blk) f := by
  refine wp_storeL2Block (J := fun f => f.txPart.storing = some ⟨blk, true, blk.txHashes⟩) (fun hc _
    => wp_keepsStore hc.leavesTxs) (fun hc _ => wp_keepsStore hc.leavesTxs) (fun r batchResponse f
    hf => ?_) (fun f hf => ?_) h
  · refine store_txs.act (Q := fun _ p => p.storing = some ⟨blk, true, blk.txHashes⟩)
      (stable_storingTxs _) hf fun f a f' hP hi hf => ?_
    obtain ⟨state, sipBatch, rfl⟩ := commitL2Block_ok (commitL2Block_of_map hf)
    have hs := hi.commit hP
    refine ⟨?_, rfl⟩
    simp only [txPart, storedTxs_concat] at hs ⊢
    simpa [storedTxs, reorgsOf] using hs
  · exact wp_forEach (P := fun (txs : List BlockTx) (f : Finalizer) => f.txPart.storing = some ⟨blk,
      true, txs.map fun tx => tx.hash⟩) (fun tx txs f hP => wp_deletePendingTx_txs hG hP) hf

lemma wp_storeL2Blocks_txs (hG : Identifies G) (h : f.storing = none) :
    (txsOutline G).Wp .store (fun _ f => f.storing = none) (storePendingL2Blocks cfg) f := by
  refine (store_txs.act (Q := fun blk p => p.storing = some ⟨blk, false, blk.txHashes⟩)
    (stable_storingTxs _) h fun f blk f' hP hi hf => ?_).seq fun blk f hf => ?_
  · obtain ⟨first, hh, rfl, rfl⟩ := bind_pair_inj hf
    exact ⟨hi.takeToStore hP (deref_ok_iff.mp hh), rfl⟩
  refine (wp_storeL2Block_txs hG hf).seq fun _ f hf => ?_
  refine store_txs.act (Q := fun _ p => p.storing = none) (stable_storingTxs _) hf
    fun f a f' hP hi hf => ?_
  cases hf
  exact ⟨hi.stored hP, rfl⟩
end

lemma mem_offeredTxs_of_queued {w : Worker} {th : Hash} (h : w.Queued th) : th ∈ w.offeredTxs := by
  obtain ⟨a, q, t, hl, ht, rfl⟩ := h
  rw [offeredTxs, map_append, queuedTxs]
  refine mem_append_left _ (mem_map_of_mem (mem_flatMap.mpr ⟨⟨a, q⟩, ?_, ?_⟩))
  · exact (GoMap.mem_entries_iff _ _ _).mpr hl
  · exact (q.mem_txs_iff t).mpr ht

variable {G : TxTracker → Prop}

lemma wp_loadFromPool_txs (hG : Identifies G) {cfg : FinalizerCfg} :
    (txsOutline G).Wp .pool (fun _ _ => True) (loadFromPool cfg G) f := by
  refine wp_ask fun tx => wp_ask fun state => ?_
  refine (wp_action (Q := fun _ _ => True) (fun _ _ _ _ _ _ => trivial)
    fun f' r f'' _ hi hr hf _ => ?_).seq fun _ _ _ => trivial
  obtain ⟨⟨w, added⟩, hc, hf⟩ := ok_of_bind hf
  cases hf
  obtain ⟨hr, -⟩ := Bool.and_eq_true_iff.mp hr
  obtain ⟨hr, hu⟩ := Bool.and_eq_true_iff.mp hr
  obtain ⟨-, hpr⟩ := Bool.and_eq_true_iff.mp hr
  have hu : tx.1.hash ∉ f'.knownTxs := by simpa using hu
  rw [knownTxs, mem_append, mem_append, not_or, not_or] at hu
  obtain ⟨⟨ho, hp⟩, hso⟩ := hu
  obtain ⟨ht, hw⟩ := addTxTracker_tidy hG hi.custody.tidy cfg.validIP state
    tx.2 (fun hq => ho (mem_offeredTxs_of_queued hq)) (returned_ok_iff.mp hc)
  have hwt : tx.1.hash ∉ f'.txPart.left ++ f'.txPart.waiting := hi.custody.pending ▸ hp
  obtain ⟨hs, hm⟩ := hi.widen (Option.isNone_iff_eq_none.mp hpr) ht hw hwt hso
  refine ⟨hs.inv, fun j hj => ?_, trivial⟩
  cases j with
  | main => exact hm
  | process => exact hs.process
  | store => exact hs.store
  | forced => trivial
  | pool => exact absurd rfl hj

variable (cfg : FinalizerCfg)

lemma txsOutline_valid (hG : Identifies G) : (txsOutline G).Valid (openNewWIPL2Block cfg)
    (body cfg G) where
  loop_stable i f f' hloop hrely := by
    cases i with
    | main => exact stable_ready false _ _ hloop hrely
    | process => exact hrely.processBusy.trans hloop
    | store => exact hrely.storing.trans hloop
    | _ => trivial
  proc i args ag f hpre := by
    obtain ⟨rfl, ho⟩ := hpre
    exact wp_openL2Block_txs hG ho
  body i f hloop := by
    cases i with
    | main => exact wp_finalizeBatches_txs hG hloop
    | process => exact wp_processL2Blocks_txs hloop
    | store => exact wp_storeL2Blocks_txs hG hloop
    | forced =>
      refine sees_txPart.wp_within (P := fun _ => True) (within_checkForced ?_)
        (fun _ _ h _ => h) trivial
      exact fun _ _ _ => rfl
    | pool => exact wp_loadFromPool_txs hG

lemma holds_startProcess_txs (G : TxTracker → Prop)
    (state : List StateBatch) : (txsOutline G).Holds (startProcess cfg state) where
  inv := ⟨Custody.new _, fun _ => rfl, fun _ => rfl, nofun⟩
  wp i := by
    cases i with
    | main => exact wp_start_txs ⟨rfl, nofun⟩
    | process => exact rfl
    | store => exact rfl
    | _ => trivial

/-- The transactions of L2 blocks on their way: of the block being stored those that the worker
still has, and all of those in the channels, discarded, being processed and in progress. -/
def unstoredTxs (f : Finalizer) : List Hash := f.txPart.left ++ f.txPart.waiting

/-- The pending transactions are those of the L2 blocks not stored yet, in order and once each.
After every reorg the worker has all transactions of the discarded blocks, and it never offers a
stored one. -/
theorem pendingToStore_eq_unstoredTxs {cfg : FinalizerCfg} {G : TxTracker → Prop}
    (hG : Identifies G) {state : List StateBatch}
    {c : Process Finalizer NewL2BlockArgs Fault Goroutine}
    (h : Reaches cfg G (fun _ _ => True) state c) : c.shared.worker.pendingToStore.map
    TxTracker.hash = c.shared.unstoredTxs ∧ c.shared.unstoredTxs.Nodup ∧
    (∀ discarded back, .reorged discarded back ∈ c.shared.trace → discarded ⊆ back) ∧ ∀ remaining
    high n schedule w tx, c.shared.worker.getBestFittingTx remaining high n schedule = .ok
    (w, .ok tx) → tx.hash ∉ storedTxs c.shared.trace := by
  have hh := (txsOutline_valid cfg hG).sound (fun c hc => by
    rw [hc]
    exact holds_startProcess_txs cfg G state) h
  refine ⟨hh.inv.custody.pending, hh.inv.custody.nodup, fun discarded back hm => ?_,
    fun remaining high n schedule w tx hb =>
      hh.inv.custody.not_stored_of_getBestFittingTx hb⟩
  exact hh.inv.returned (discarded, back) (mem_filterMap.mpr ⟨_, hm, rfl⟩)

structure TracksPlain (tx : TxTracker) : Prop where
  hash : tx.hash = (plainTx 1 0 1 0).hash
  fromAddr : tx.fromAddr = (plainTx 1 0 1 0).fromAddr
  nonce : tx.nonce = (plainTx 1 0 1 0).nonce

lemma identifies_tracksPlain : Identifies TracksPlain where
  from_eq _ _ hs ht _ := hs.fromAddr.trans ht.fromAddr.symm
  nonce_eq _ _ hs ht _ := hs.nonce.trans ht.nonce.symm
  counters _ _ _ ht := ⟨ht.hash, ht.fromAddr, ht.nonce⟩

open Evolves renaming act → go, answer → hears

/-- The L2 block of the transaction fails, and after the reorg the worker has the
transaction again. -/
lemma reaches_reorgedTx : ∃ c, Reaches plainCfg TracksPlain (fun _ _ => True) plainBatches c ∧
    (∃ back, .reorged [(plainTx 1 0 1 0).hash] back ∈ c.shared.trace) ∧
    c.shared.worker.Queued (plainTx 1 0 1 0).hash := by
  have hn : Process.Going (openNewWIPL2Block plainCfg) (body plainCfg TracksPlain)
      (fun _ _ => True) (fun c => c = startProcess plainCfg plainBatches)
      (startProcess plainCfg plainBatches) := by
    refine ⟨.start rfl, fun i fault => ?_⟩
    cases i with
    | _ => nofun
  have hs := hn.evolve .main rfl (by
    iterate 2 apply go rfl
    apply hears (some 0)
    apply Evolves.call
    apply hears ⟨0, 0, false⟩
    iterate 2 apply go rfl
    apply hears (some (plainResponse 0))
    iterate 3 apply go rfl
    exact .refl _ _)
  have hpl := hs.evolveBody .pool rfl (by
    apply hears ⟨plainTx 1 0 1 0, ⟨rfl, rfl, rfl⟩⟩
    apply hears plainState
    apply go rfl
    exact .refl _ _)
  have hac := hpl.evolveBody .main rfl (by
    apply go rfl
    apply hears false
    apply go rfl
    apply hears 1
    apply hears [0, 0]
    iterate 2 apply go rfl
    apply hears (.executed (plainExecution (plainTx 1 0 1 0)))
    iterate 6 apply go rfl
    apply hears false
    apply hears false
    apply go rfl
    exact .refl _ _)
  have hc := hac.evolveBody .main rfl (by
    apply go rfl
    apply hears true
    iterate 7 apply go rfl
    apply hears false
    apply go rfl
    apply Evolves.call
    apply hears ⟨0, 0, false⟩
    iterate 2 apply go rfl
    apply hears (some (plainResponse 0))
    iterate 2 apply go rfl
    apply hears 1
    apply hears [0, 0]
    iterate 4 apply go rfl
    apply hears false
    apply hears false
    apply go rfl
    exact .refl _ _)
  have hf := hc.evolveBody .process rfl (by
    iterate 4 apply go rfl
    apply hears none
    iterate 4 apply go rfl
    exact .refl _ _)
  have hr := hf.evolveBody .main rfl (by
    iterate 4 apply go rfl
    apply hears ⟨fun addrs => addrs, .refl⟩
    apply hears fun _ => plainState
    iterate 3 apply go rfl
    apply hears (some 0)
    apply Evolves.call
    apply hears ⟨0, 0, false⟩
    iterate 2 apply go rfl
    apply hears (some (plainResponse 0))
    iterate 3 apply go rfl
    exact .refl _ _)
  exact ⟨_, hr.reaches, ⟨_, mem_of_getElem? (i := 1) rfl⟩,
    (plainTx 1 0 1 0).fromAddr, _, _, rfl, .inl rfl, rfl⟩

theorem pendingToStore_eq_unstoredTxs_reorg :
    ∃ c, Reaches plainCfg TracksPlain (fun _ _ => True) plainBatches c ∧
    (∃ back, .reorged [(plainTx 1 0 1 0).hash] back ∈ c.shared.trace ∧
    (plainTx 1 0 1 0).hash ∈ back) ∧
    c.shared.worker.pendingToStore.map TxTracker.hash = c.shared.unstoredTxs := by
  obtain ⟨c, hr, ⟨back, hm⟩, -⟩ := reaches_reorgedTx
  obtain ⟨hpending, -, hback, -⟩ := pendingToStore_eq_unstoredTxs identifies_tracksPlain hr
  exact ⟨c, hr, ⟨back, hm, hback _ _ hm mem_cons_self⟩, hpending⟩

end Finalizer

end EthdaNode.Sequencer
