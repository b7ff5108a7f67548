import EthdaNode.Sequencer.BestFit
import EthdaNode.Sequencer.FinalizerBlocks

/-!
# Closing batches with L2 blocks

`closeWIPBatch` halts the finalizer if the batch has no L2 block. The main loop calls it
for such a batch if nothing fits into a batch that has only an empty L2 block in progress.
As long as there is room, it closes only batches with L2 blocks.
-/

namespace EthdaNode.Sequencer

open State List
open Go Go.Code Go.Outline

lemma Batch.takeResources_counts (b : Batch) (used reserved : ZKCounters) (bytes : UInt64) :
    (b.takeResources used reserved bytes).1.countOfL2Blocks = b.countOfL2Blocks ∧
    (b.takeResources used reserved bytes).1.countOfTxs = b.countOfTxs := by
  rw [Batch.takeResources]
  dsimp only
  split_ifs <;> exact ⟨rfl, rfl⟩

lemma Batch.takeResources_imStateRoot (b : Batch) (root : Hash) (used reserved : ZKCounters)
    (bytes : UInt64) :
    (Batch.takeResources { b with imStateRoot := root } used reserved bytes).2 =
    (b.takeResources used reserved bytes).2 := by
  rw [Batch.takeResources, Batch.takeResources]
  dsimp only
  split_ifs <;> rfl

structure Filling where
  countOfL2Blocks : ℕ
  countOfTxs : ℕ
  imRemainingResources : BatchResources
  imHighReservedZKCounters : ZKCounters

def HeapBatch.filling (b : HeapBatch) : Filling :=
  ⟨b.countOfL2Blocks, b.countOfTxs, b.imRemainingResources, b.imHighReservedZKCounters⟩

structure FillPart where
  batches : List Filling
  wipBatch : Option BatchRef
  wipL2Block : Option PendingL2Block
  forced : List UInt64
  deadline : Bool
  mux : Bool
  emptyClosed : Bool

namespace FillPart

variable (p : FillPart)

def wip? : Option Filling := p.wipBatch.bind fun r => p.batches[r]?

/-- There is a deadline only while there are forced batches, and no batch without L2
blocks was closed. -/
structure Inv (p : FillPart) : Prop where
  deadline : p.deadline = true → p.forced ≠ []
  emptyClosed : p.emptyClosed = false

structure MainRely (p p' : FillPart) : Prop where
  batches : p'.batches = p.batches
  wipBatch : p'.wipBatch = p.wipBatch
  wipL2Block : p'.wipL2Block = p.wipL2Block
  mux : p'.mux = p.mux
  forced : p.forced ≠ [] → p'.forced ≠ []
  deadline : p.mux = true → p'.deadline = p.deadline

def HasL2Blocks : Prop := ∀ b, p.wip? = some b → b.countOfL2Blocks ≠ 0

def Filled : Prop := p.forced ≠ [] ∨ p.HasL2Blocks

/-- A batch with transactions has L2 blocks. -/
def Counted : Prop := ∀ b, p.wip? = some b → b.countOfL2Blocks ≠ 0 ∨ b.countOfTxs = 0

/-- The L2 block in progress has its batch, which has L2 blocks if it has transactions and the block
is empty. -/
def Placed : Prop :=
  ∀ block, p.wipL2Block = some block → block.batch = p.wipBatch ∧
    ∀ b, p.wip? = some b → b.countOfL2Blocks ≠ 0 ∨ block.isEmpty = false ∨ b.countOfTxs = 0

/-- The new L2 block does not have its resources yet. -/
def NewBlock : Prop :=
  p.Counted ∧ ∀ block, p.wipL2Block = some block → block.bytes ≠ changeL2BlockSize

/-- If the L2 block in progress is empty, then the batch may be closed. -/
def Closable : Prop := ∀ block, p.wipL2Block = some block → block.isEmpty = true → p.Filled

variable {p p' p'' : FillPart}

lemma MainRely.refl (p : FillPart) : MainRely p p := ⟨rfl, rfl, rfl, rfl, fun h => h, fun _ => rfl⟩

lemma MainRely.trans (h : MainRely p p') (h' : MainRely p' p'') : MainRely p p'' where
  batches := h'.batches.trans h.batches
  wipBatch := h'.wipBatch.trans h.wipBatch
  wipL2Block := h'.wipL2Block.trans h.wipL2Block
  mux := h'.mux.trans h.mux
  forced hforced := h'.forced (h.forced hforced)
  deadline hmux := (h'.deadline (h.mux.trans hmux)).trans (h.deadline hmux)

lemma MainRely.wip? (h : MainRely p p') : p'.wip? = p.wip? := by
  rw [FillPart.wip?, FillPart.wip?, h.wipBatch, h.batches]

def Stable (P : FillPart → Prop) : Prop := ∀ p p', P p → MainRely p p' → P p'

lemma stable_true : Stable fun _ => True := fun _ _ h _ => h

lemma stable_counted : Stable Counted := fun _ _ h hr b hb => h b (hr.wip? ▸ hb)

lemma stable_hasL2Blocks : Stable HasL2Blocks := fun _ _ h hr b hb => h b (hr.wip? ▸ hb)

lemma stable_filled : Stable Filled :=
  fun _ _ h hr => h.imp hr.forced fun h => stable_hasL2Blocks _ _ h hr

lemma stable_placed : Stable Placed := by
  intro p p' h hr blk hl
  obtain ⟨ht, hc⟩ := h blk (hr.wipL2Block ▸ hl)
  refine ⟨ht.trans hr.wipBatch.symm, fun b hb => ?_⟩
  exact hc b (hr.wip? ▸ hb)

lemma stable_newBlock : Stable NewBlock := by
  intro p p' h hr
  refine ⟨stable_counted _ _ h.1 hr, fun blk hb => ?_⟩
  exact h.2 blk (hr.wipL2Block ▸ hb)

lemma stable_closable : Stable Closable := by
  intro p p' h hr blk hb he
  exact stable_filled _ _ (h blk (hr.wipL2Block ▸ hb) he) hr

lemma Stable.and {P Q : FillPart → Prop} (hP : Stable P) (hQ : Stable Q) :
    Stable fun p => P p ∧ Q p :=
  fun p p' h hr => ⟨hP p p' h.1 hr, hQ p p' h.2 hr⟩

end FillPart

open FillPart

namespace Finalizer

def fillPart (f : Finalizer) : FillPart where
  batches := f.batches.map HeapBatch.filling
  wipBatch := f.wipBatch
  wipL2Block := f.wipL2Block
  forced := f.nextForcedBatches
  deadline := f.nextForcedBatchDeadline
  mux := f.nextForcedBatchesMux
  emptyClosed := f.emptyClosed

variable (cfg : FinalizerCfg)

/-- While the batch has only an empty L2 block in progress, its resources are not exhausted and a
ready transaction fits. As an `int` the greatest number of transactions is not negative. -/
def Roomy (f : Finalizer) : Prop :=
  ∀ wip block, f.batchAt f.wipBatch = .ok wip → f.wipL2Block = some block →
    block.batch = f.wipBatch → block.isEmpty = true → wip.2.countOfL2Blocks = 0 →
      0 ≤ cfg.batchConstraints.maxTxsPerBatch.toInt64.toInt ∧
        isBatchResourcesMarginExhausted cfg wip.2.imRemainingResources = false ∧
        ¬f.worker.NoneFits wip.2.imRemainingResources wip.2.imHighReservedZKCounters

/-- If `openNewWIPL2Block` sets the resources of the new block, they fit into a batch without L2
blocks. -/
def NewL2BlockFits (f f' : Finalizer) : Prop :=
  ∀ wip block block', f.batchAt f.wipBatch = .ok wip → f.wipL2Block = some block →
    f'.wipL2Block = some block' → block.bytes ≠ changeL2BlockSize →
    block'.bytes = changeL2BlockSize → wip.2.countOfL2Blocks = 0 →
      (wip.2.toBatch.takeResources block'.usedZKCountersOnNew block'.reservedZKCountersOnNew
        block'.bytes).2 = (true, false)

structure HasRoom (cfg : FinalizerCfg) (f f' : Finalizer) : Prop where
  roomy : f.Roomy cfg
  fits : NewL2BlockFits f f'

/-- The main loop closes only batches with L2 blocks. -/
def fillOutline : Outline Finalizer NewL2BlockArgs Fault Goroutine Unit where
  allowed := HasRoom cfg
  inv f := f.fillPart.Inv
  rely i f f' := i = .main → f.fillPart.MainRely f'.fillPart
  rely_refl _ _ _ := .refl _
  rely_trans _ _ _ _ h h' hi := (h hi).trans (h' hi)
  loop i f := i = .main → f.fillPart.Placed
  pre i _ _ f := i = .main ∧ f.fillPart.Counted
  post _ _ _ f := f.fillPart.Placed ∧ f.fillPart.Counted
  expected _ := True

lemma sees_fillPart : (fillOutline cfg).Sees fillPart where
  inv heq hinv := by
    show Inv _
    rw [heq]
    exact hinv
  rely {j f f'} heq _ := by
    rw [heq]
    exact .refl _

/-! ## Code that leaves the batches in progress -/

abbrev LeavesFill {α : Type} (code : Run α) : Prop :=
  code.Within (fun f f' => f'.fillPart = f.fillPart) fun _ => True

variable {α : Type}

lemma leaves_look (g : Finalizer → Except Fault α) : LeavesFill (.look g) := by
  refine within_look ?_ fun _ _ _ => trivial
  exact fun _ => rfl

lemma leaves_await (ready : Finalizer → Bool) : LeavesFill (.await ready) := by
  refine within_await ?_ ready
  exact fun _ => rfl

lemma leaves_modify {g : Finalizer → Finalizer}
    (h : ∀ f, (g f).fillPart = f.fillPart) : LeavesFill (.modify g) :=
  within_modify h

lemma leaves_exit (fault : Fault) : LeavesFill (.exit fault : Run α) := trivial

lemma leaves_halt : LeavesFill (halt : Run α) := by
  refine Within.bind (leaves_modify ?_) fun _ => ?_
  · exact fun _ => rfl
  · trivial

lemma leaves_workerWhen {ready : Finalizer → Bool}
    {g : Worker → Outcome WorkerError (Worker × α)} {record : α → Finalizer → Finalizer}
    (h : ∀ (f : Finalizer) w a, (record a { f with worker := w }).fillPart = f.fillPart) :
    LeavesFill (callWorkerWhen ready g record) := by
  refine Within.mono (within_workerWhen ?_) (fun _ _ h => h) fun _ _ => trivial
  exact h

lemma leaves_callWorker (g : Worker → Outcome WorkerError (Worker × α)) :
    LeavesFill (callWorker g) := by
  rw [callWorker, callWorkerAnd]
  refine leaves_workerWhen ?_
  exact fun _ _ _ => rfl

variable {f : Finalizer}

lemma fillPart_setBatch {r : BatchRef} {b b' : HeapBatch} (hb : f.batches[r]? = some b)
    (h : b'.filling = b.filling) : (f.setBatch r b').fillPart = f.fillPart := by
  simp only [fillPart, setBatch, map_set_of_eq hb h]

lemma leaves_addToProcess (blk : PendingL2Block) : LeavesFill (addPendingL2BlockToProcess blk) := by
  refine leaves_modify ?_
  exact fun _ => rfl

lemma leaves_waitL2Blocks : LeavesFill waitPendingL2Blocks :=
  (leaves_await _).bind fun _ => leaves_await _

lemma leaves_syncStateRoot : LeavesFill syncStateRoot := by
  refine leaves_waitL2Blocks.bind fun _ => ?_
  refine Within.bind (within_action (fun _ _ _ => trivial) fun f a f' h => ?_)
    fun syn => within_when leaves_halt
  obtain ⟨wip, hw, h⟩ := ok_of_bind h
  obtain ⟨sip, -, h⟩ := ok_of_bind h
  split_ifs at h
  · cases h
    rfl
  · cases h
    exact fillPart_setBatch (batchAt_ok_iff.mp hw).2 rfl

lemma leaves_closeSIPBatch (ans : SIPAnswer) : LeavesFill (closeSIPBatch cfg ans) := by
  refine (leaves_look _).bind fun sb => ?_
  rcases sb with _ | r
  · exact leaves_halt
  refine (leaves_look _).bind fun sip => ?_
  split_ifs
  · exact leaves_halt
  cases ans with
  | beginFails => trivial
  | closeFails => trivial
  | commitFails => trivial
  | committed =>
    refine Within.bind (leaves_modify ?_) fun _ => ?_
    · exact fun _ => rfl
    · trivial

lemma leaves_finalizeSIP : LeavesFill (finalizeSIPBatch cfg) := by
  refine (within_ask _).bind fun ans => ?_
  cases ans with
  | beginFails => exact (leaves_look _).bind fun _ => trivial
  | closeFails => exact leaves_closeSIPBatch cfg .closeFails
  | commitFails => exact leaves_closeSIPBatch cfg .commitFails
  | committed => exact leaves_closeSIPBatch cfg .committed

lemma leaves_closePrev : LeavesFill (closePreviousBatch cfg) := by
  refine (leaves_look _).bind fun closed => ?_
  cases closed with
  | false => trivial
  | true => exact leaves_finalizeSIP cfg

lemma leaves_processForcedBatch (number : UInt64) (root : Hash) :
    LeavesFill (processNextForcedBatches number root) := by
  refine within_processForced (fun _ => ?_)
    (within_processForcedBatch (fun _ => leaves_callWorker _)
    (fun _ => leaves_callWorker _) fun _ _ => ?_) number root
  · rfl
  · rfl

/-! ## The main loop -/

section
variable {cfg : FinalizerCfg} {f : Finalizer} {α : Type} {P : FillPart → Prop}

lemma wp_keepsFill {code : Run α} (hs : Stable P) (hc : LeavesFill code) (h : P f.fillPart) :
    (fillOutline cfg).Wp .main (fun _ f => P f.fillPart) code f :=
  (sees_fillPart cfg).wp_within hc (fun _ _ hP hr => hs _ _ hP (hr rfl)) h

lemma wp_lookFill {g : Finalizer → Except Fault α} (hs : Stable P) (h : P f.fillPart) :
    (fillOutline cfg).Wp .main (fun a f => P f.fillPart ∧ g f = .ok a) (.look g) f :=
  wp_lookKnowing (fun _ _ _ => trivial) (fun _ _ hP hr => hs _ _ hP (hr rfl)) h

variable {g : Finalizer → Except Fault (α × Finalizer)} {Q : α → FillPart → Prop}

variable {ready : Finalizer → Bool}

lemma wp_actFill (hs : Stable P) (h : P f.fillPart) (hg : ∀ f a f', P f.fillPart → f.fillPart.Inv →
    g f = .ok (a, f') → HasRoom cfg f f' → f'.fillPart.Inv ∧ Q a f'.fillPart) :
    (fillOutline cfg).Wp .main (fun a f => Q a f.fillPart) (.action ready g .ret) f := by
  refine wp_actionKnowing (fun _ _ _ => trivial)
    (fun _ _ hP hr => hs _ _ hP (hr rfl)) h fun f a f' hP hi _ hf ha => ?_
  obtain ⟨hn, hQ⟩ := hg f a f' hP hi hf ha
  exact ⟨⟨hn, fun _ hj hm => absurd hm hj⟩, hQ⟩

lemma wp_fill (hs : Stable P) (h : P f.fillPart)
    (hg : ∀ f a f', P f.fillPart → g f = .ok (a, f') →
    (∃ bs wb block, f'.fillPart = { f.fillPart with
    batches := bs, wipBatch := wb, wipL2Block := block }) ∧
    Q a f'.fillPart) :
    (fillOutline cfg).Wp .main (fun a f => Q a f.fillPart) (.action ready g .ret) f := by
  refine wp_actFill hs h fun f a f' hP hi hf _ => ?_
  obtain ⟨⟨bs, wb, block, he⟩, hQ⟩ := hg f a f' hP hf
  rw [he] at hQ ⊢
  exact ⟨⟨hi.deadline, hi.emptyClosed⟩, hQ⟩

lemma wp_haltFill {Q : α → Finalizer → Prop} : (fillOutline cfg).Wp .main Q halt f := by
  refine (wp_keepsFill stable_true ?_ trivial).seq fun _ _ _ => trivial
  exact within_modify fun _ => rfl

variable {wip : BatchRef × HeapBatch}

lemma wip?_of_batchAt (h : f.batchAt f.wipBatch = .ok wip) :
    f.fillPart.wip? = some wip.2.filling := by
  obtain ⟨hw, hb⟩ := batchAt_ok_iff.mp h
  rw [wip?, fillPart, hw, Option.bind_some, getElem?_map, hb]
  rfl

variable {b b' : HeapBatch} {r : BatchRef}

lemma wip?_setBatch (hw : f.wipBatch = some r) (hb : f.batches[r]? = some b) :
    (f.setBatch r b').fillPart.wip? = some b'.filling := by
  have hr := (List.getElem?_eq_some_iff.mp hb).1
  simp only [wip?, fillPart, setBatch, hw, Option.bind_some, List.getElem?_map,
    getElem?_set_self hr]
  rfl

lemma wp_closeL2Block_fill : (fillOutline cfg).Wp .main
    (fun _ f => f.fillPart.HasL2Blocks ∧ f.fillPart.wipL2Block = none) closeWIPL2Block f := by
  have hs := stable_hasL2Blocks
  refine (wp_keepsFill stable_true (leaves_look _) trivial).seq fun blk f _ => ?_
  refine (wp_fill (Q := fun _ => HasL2Blocks) stable_true trivial
    fun f a f' _ hf => ?_).seq fun _ f hf => ?_
  · obtain ⟨wip, ha, -, rfl⟩ := bind_pair_inj hf
    obtain ⟨hw, hb⟩ := batchAt_ok_iff.mp ha
    refine ⟨⟨_, _, _, rfl⟩, fun b hb' => ?_⟩
    obtain rfl := Option.mem_unique (wip?_setBatch hw hb) hb'
    exact Nat.succ_ne_zero _
  refine (wp_keepsFill hs (leaves_await _) hf).seq fun _ f hf => ?_
  refine (wp_keepsFill hs (leaves_addToProcess blk) hf).seq fun _ f hf => ?_
  refine (wp_keepsFill hs (leaves_look _) hf).seq fun _ f hf => ?_
  refine wp_ask fun sync => ?_
  refine (wp_keepsFill hs (within_when leaves_syncStateRoot) hf).seq fun _ f hf => ?_
  refine wp_fill (Q := fun _ p => p.HasL2Blocks ∧ p.wipL2Block = none) hs hf fun f a f' hP hf => ?_
  cases hf
  exact ⟨⟨_, _, none, rfl⟩, hP, rfl⟩

lemma wp_closeForNextBatch_fill {fb : Bool} (h : fb = false → f.fillPart.HasL2Blocks) :
    (fillOutline cfg).Wp .main (fun _ f => f.fillPart.HasL2Blocks)
    (closeForNextBatch cfg fb) f := by
  have hs := stable_hasL2Blocks
  rcases fb with _ | _
  · exact (wp_keepsFill hs (leaves_look _) (h rfl)).seq fun _ _ hf => hf
  refine wp_closeL2Block_fill.seq fun _ f hf => ?_
  refine (wp_keepsFill hs leaves_waitL2Blocks hf.1).seq fun _ f hf => ?_
  refine (wp_keepsFill hs (leaves_look _) hf).seq fun sip f hf => ?_
  refine (wp_keepsFill hs (leaves_finalizeSIP cfg) hf).seq fun closed f hf => ?_
  exact (wp_keepsFill hs (within_when (leaves_exit _)) hf).seq fun _ _ hf => hf

lemma wp_closeWIPBatch_fill (h : f.fillPart.HasL2Blocks) :
    (fillOutline cfg).Wp .main (fun _ _ => True) closeWIPBatch f := by
  refine (wp_lookFill stable_hasL2Blocks h).seq fun wip f hf => ?_
  split_ifs with hc
  · exact absurd hc (hf.1 _ (wip?_of_batchAt hf.2))
  refine (wp_fill (Q := fun _ _ => True) stable_true trivial
    fun f a f' _ hf => ?_).seq fun _ _ _ => trivial
  cases hf
  exact ⟨⟨_, none, _, rfl⟩, trivial⟩

lemma leaves_haltOnBatch : LeavesFill (haltOnBatchNumber cfg) := by
  refine leaves_waitL2Blocks.bind fun _ => ?_
  refine (leaves_finalizeSIP cfg).bind fun _ => ?_
  exact (within_when (leaves_exit _)).bind fun _ => leaves_halt

/-- `processForcedBatches`: while it has the lock there is no deadline. -/
lemma wp_processForcedBatches_fill {number : UInt64} {root : Hash} :
    (fillOutline cfg).Wp .main (fun _ _ => True) (processForcedBatches number root) f := by
  have hs : Stable fun p => p.mux = true ∧ p.deadline = false := by
    intro p p' hP hr
    exact ⟨hr.mux.trans hP.1, (hr.deadline hP.1).trans hP.2⟩
  refine (wp_actFill (Q := fun _ p => p.mux = true ∧ p.deadline = false) stable_true
    trivial fun f a f' _ hi hf _ => ?_).seq fun _ f hf => ?_
  · cases hf
    exact ⟨⟨nofun, hi.emptyClosed⟩, rfl, rfl⟩
  refine (wp_keepsFill hs (leaves_processForcedBatch number root) hf).seq fun res f hf => ?_
  refine (wp_actFill (Q := fun _ _ => True) hs hf fun f a f' hP hi hf _ => ?_).seq
    fun _ _ _ => trivial
  cases hf
  exact ⟨⟨fun hd => absurd (hP.2.symm.trans hd) nofun, hi.emptyClosed⟩, trivial⟩

variable {args : NewL2BlockArgs}

lemma wp_runOpenBlock_fill (h : f.fillPart.Counted) :
    (fillOutline cfg).Wp .main (fun _ f => f.fillPart.Placed ∧ f.fillPart.Counted) (.run args) f :=
  wp_run () (fun _ hr => ⟨rfl, stable_counted _ _ h (hr rfl)⟩) fun _ hf => hf

lemma wp_initL2Block_fill (h : f.fillPart.Counted) : (fillOutline cfg).Wp .main
    (fun _ f => f.fillPart.Placed ∧ f.fillPart.Counted) initWIPL2Block f := by
  refine wp_ask fun ra => ?_
  cases ra with
  | none => trivial
  | some t => exact wp_runOpenBlock_fill h

lemma counted_setBatch (hw : f.wipBatch = some r) (hb : f.batches[r]? = some b)
    (h : f.fillPart.Counted) (hct : b'.countOfL2Blocks = b.countOfL2Blocks)
    (ht : b'.countOfTxs = b.countOfTxs) : (f.setBatch r b').fillPart.Counted := by
  intro x hx
  obtain rfl := Option.mem_unique (wip?_setBatch hw hb) hx
  have ha : f.batchAt f.wipBatch = .ok (r, b) := batchAt_ok_iff.mpr ⟨hw, hb⟩
  have hc := h _ (wip?_of_batchAt ha)
  simp only [HeapBatch.filling] at hc ⊢
  rwa [hct, ht]

lemma placed_of_counted {p : FillPart} {blk : PendingL2Block} (h : p.Counted)
    (hl : p.wipL2Block = some blk) (ht : blk.batch = p.wipBatch) : p.Placed := by
  intro x hx
  obtain rfl := Option.mem_unique hl hx
  exact ⟨ht, fun b hb => (h b hb).imp_right .inr⟩

lemma wp_carryL2Block_fill (h : f.fillPart.Counted) : (fillOutline cfg).Wp .main
    (fun _ f => f.fillPart.Placed ∧ f.fillPart.Counted) carryL2Block f := by
  refine wp_fill (Q := fun _ p => p.Placed ∧ p.Counted) stable_counted h fun f a f' hP hf => ?_
  rcases hl : f.wipL2Block with _ | blk
  · simp only [hl] at hf
    cases hf
    refine ⟨⟨_, _, _, rfl⟩, fun blk hs => ?_, hP⟩
    exact absurd (hl.symm.trans hs) nofun
  simp only [hl] at hf
  obtain ⟨wip, ha, hf⟩ := ok_of_bind hf
  split_ifs at hf
  cases hf
  obtain ⟨hw, hb⟩ := batchAt_ok_iff.mp ha
  let carried : HeapBatch := { wip.2 with
    toBatch := { (wip.2.toBatch.carryL2Block blk.usedZKCountersOnNew blk.bytes).1 with
      imStateRoot := blk.imStateRoot } }
  have hc : (f.setBatch wip.1 carried).fillPart.Counted := counted_setBatch hw hb hP rfl rfl
  exact ⟨⟨_, _, some _, rfl⟩, placed_of_counted hc rfl hw.symm, hc⟩

lemma counted_openBatch_fill (num : UInt64) (root : Hash) :
    (f.openWIPBatch cfg num root).fillPart.Counted := by
  intro b hb
  have hn : (f.openWIPBatch cfg num root).batches[f.batches.length]? = some
      ⟨openNewWIPBatch cfg.batchConstraints num root, 0⟩ := by
    simp [openWIPBatch]
  have ha : (f.openWIPBatch cfg num root).batchAt (some f.batches.length) =
      .ok (_, _) := batchAt_ok_iff.mpr ⟨rfl, hn⟩
  obtain rfl := Option.mem_unique (wip?_of_batchAt ha) hb
  exact .inr rfl

lemma wp_reopenBatch_fill (h : f.fillPart.Filled) : (fillOutline cfg).Wp .main
    (fun _ f => f.fillPart.Placed ∧ f.fillPart.Counted) (closeAndOpenNewWIPBatch cfg) f := by
  refine (wp_fill (Q := fun fb p => fb = false → p.HasL2Blocks)
    stable_filled h fun f fb f' hP hf => ?_).seq fun fb f hf => ?_
  · cases hf
    refine ⟨⟨_, _, _, rfl⟩, fun hr => hP.resolve_left fun hn => hn ?_⟩
    have he : f.nextForcedBatches.isEmpty = true := by simpa using hr
    exact isEmpty_iff.mp he
  refine (wp_closeForNextBatch_fill hf).seq fun root f hf => ?_
  refine (wp_closeWIPBatch_fill hf).seq fun number f _ => ?_
  refine (wp_keepsFill stable_true (within_when leaves_haltOnBatch) trivial).seq fun _ f _ => ?_
  refine Wp.seq (Q := fun _ _ => True) ?_ fun last f _ => ?_
  · cases fb with
    | false => trivial
    | true => exact wp_processForcedBatches_fill
  refine (wp_fill (Q := fun _ => Counted) stable_true trivial
    fun f a f' _ hf => ?_).seq fun _ f hc => ?_
  · cases hf
    exact ⟨⟨_, some _, _, rfl⟩, counted_openBatch_fill _ _⟩
  cases fb with
  | false => exact wp_carryL2Block_fill hc
  | true => exact wp_initL2Block_fill hc

/-- The new L2 block takes its resources: if it does not fit, then the batch has L2
blocks. -/
lemma wp_takeNewL2Block_fill {resp : ProcessBatchResponse} (h : f.fillPart.NewBlock) :
    (fillOutline cfg).Wp .main (fun fits f => f.fillPart.Counted ∧ (fits = false →
    f.fillPart.Filled)) (.act fun f => f.takeNewL2Block resp) f := by
  refine wp_actFill (Q := fun fits p => p.Counted ∧ (fits = false → p.Filled))
    stable_newBlock h fun f fits f' hP hi hf hr => ?_
  obtain ⟨wip, ha, hf⟩ := ok_of_bind hf
  obtain ⟨blk, hl, rfl, rfl⟩ := bind_pair_inj hf
  have hl := deref_ok_iff.mp hl
  obtain ⟨hw, hb⟩ := batchAt_ok_iff.mp ha
  have hc := Batch.takeResources_counts { wip.2.toBatch with imStateRoot := resp.newStateRoot }
    resp.usedZkCounters.onNew resp.reservedZkCounters.onNew changeL2BlockSize
  refine ⟨⟨hi.deadline, hi.emptyClosed⟩, ?_, fun ht => .inr fun b hb' hct => ?_⟩
  · exact counted_setBatch (b := wip.2) hw hb hP.1 hc.1 hc.2
  obtain rfl := Option.mem_unique (wip?_setBatch hw hb) hb'
  have hr := hr.fits wip blk _ ha hl rfl (hP.2 blk hl) rfl (hc.1.symm.trans hct)
  rw [Batch.takeResources_imStateRoot] at ht
  rw [hr] at ht
  cases ht

lemma wp_openL2Block_fill (h : f.fillPart.Counted) : (fillOutline cfg).Wp .main
    (fun _ f => f.fillPart.Placed ∧ f.fillPart.Counted) (openNewWIPL2Block cfg args) f := by
  refine wp_ask fun inp => ?_
  refine (wp_fill (Q := fun _ => NewBlock) stable_counted h
    fun f a f' hP hf => ?_).seq fun _ f hf => ?_
  · cases hf
    refine ⟨⟨_, _, some _, rfl⟩, hP, fun blk hb => ?_⟩
    cases hb
    have hz : (0 : UInt64) ≠ changeL2BlockSize := by decide
    exact hz
  refine (wp_keepsFill stable_newBlock (leaves_look _) hf).seq fun _ f hf => ?_
  refine wp_ask fun ans => ?_
  rcases ans with _ | br
  · exact wp_haltFill
  dsimp only
  split_ifs
  · exact wp_haltFill
  refine (wp_takeNewL2Block_fill hf).seq fun fits f hf => ?_
  refine (wp_when (Q := fun _ f => f.fillPart.Counted) (fun ht => ?_)
    fun _ => hf.1).seq fun _ f hf => ?_
  · have ht : fits = false := by simpa using ht
    exact (wp_reopenBatch_fill (hf.2 ht)).mono fun _ _ hf => hf.2
  refine wp_fill (Q := fun _ p => p.Placed ∧ p.Counted) stable_counted hf fun f a f' hP hf => ?_
  obtain ⟨blk, -, -, rfl⟩ := bind_pair_inj hf
  exact ⟨⟨_, _, some _, rfl⟩, placed_of_counted hP rfl rfl, hP⟩

abbrev EndsPlaced (cfg : FinalizerCfg) {α : Type} (code : Run α) (f : Finalizer) : Prop :=
  (fillOutline cfg).Wp .main (fun _ f => f.fillPart.Placed) code f

lemma wp_finalizeL2Block_fill : EndsPlaced cfg finalizeWIPL2Block f := by
  refine (wp_keepsFill stable_true (leaves_look _) trivial).seq fun blk f _ => ?_
  refine wp_closeL2Block_fill.seq fun _ f hf => ?_
  refine (wp_runOpenBlock_fill fun b hb => .inl (hf.1 b hb)).mono fun _ _ hf => hf.1

lemma wp_finalizeBatch_fill (h : f.fillPart.Closable) :
    EndsPlaced cfg (finalizeWIPBatch cfg) f := by
  refine (wp_lookFill FillPart.stable_closable h).seq fun blk f hf => ?_
  obtain ⟨hc, hl⟩ := hf
  refine (wp_when (Q := fun _ f => f.fillPart.Filled) (fun _ => ?_) fun he => ?_).seq
    fun _ f hf => ?_
  · exact wp_closeL2Block_fill.mono fun _ _ hf => .inr hf.1
  · exact hc blk (deref_ok_iff.mp hl) (by simpa using he)
  refine (wp_reopenBatch_fill hf).seq fun _ f hf => ?_
  have hs := stable_placed.and stable_counted
  refine (wp_keepsFill hs (leaves_look _) hf).seq fun closed f hf => ?_
  refine wp_when (fun _ => ?_) fun _ => hf.1
  exact (wp_runOpenBlock_fill hf.2).mono fun _ _ hf => hf.1

lemma counted_of_setWIPBatch {prev row : StateBatch} (h : setWIPBatch cfg prev row = .ok b) :
    b.countOfL2Blocks ≠ 0 ∨ b.countOfTxs = 0 := by
  rw [setWIPBatch] at h
  split_ifs at h
  cases h
  by_cases hb : row.l2Blocks = []
  · exact .inr (by simp [hb])
  · exact .inl (by simpa using hb)

lemma wp_initBatch_fill :
    (fillOutline cfg).Wp .main (fun _ f => f.fillPart.Counted) (initWIPBatch cfg) f := by
  have ht := stable_true
  refine (wp_keepsFill ht (leaves_look _) trivial).seq fun row f _ => ?_
  split_ifs
  · refine wp_fill (Q := fun _ => Counted) ht trivial fun f a f' _ hf => ?_
    obtain ⟨prev, -, hf⟩ := ok_of_bind hf
    obtain ⟨wip, hs, -, rfl⟩ := bind_pair_inj hf
    refine ⟨⟨_, some _, _, rfl⟩, fun b hb => ?_⟩
    have hn : (f.batches ++ [wip])[f.batches.length]? = some wip := by simp
    simp only [wip?, fillPart, Option.bind_some, getElem?_map, hn] at hb
    cases hb
    exact counted_of_setWIPBatch hs
  · exact wp_haltFill
  refine wp_fill (Q := fun _ => Counted) ht trivial fun f a f' _ hf => ?_
  cases hf
  exact ⟨⟨_, some _, _, rfl⟩, counted_openBatch_fill _ _⟩

lemma wp_restartBatch_fill : EndsPlaced cfg (restartBatch cfg) f := by
  refine (wp_keepsFill stable_true ?_ trivial).seq fun _ f _ => ?_
  · refine (within_ask _).bind fun visits => (within_ask _).bind fun state => ?_
    refine leaves_workerWhen ?_
    exact fun _ _ _ => rfl
  refine wp_initBatch_fill.seq fun _ f hf => ?_
  refine (wp_initL2Block_fill hf).seq fun _ f hf => ?_
  refine wp_keepsFill stable_placed (leaves_modify ?_) hf.1
  exact fun _ => rfl

lemma wp_l2Reorg_fill (h : f.fillPart.Placed) : EndsPlaced cfg (processL2BlockReorg cfg) f := by
  have hs := stable_placed
  refine (wp_keepsFill hs leaves_waitL2Blocks h).seq fun _ f hf => ?_
  refine (wp_keepsFill hs (leaves_closePrev cfg) hf).seq fun closed f hf => ?_
  exact wp_when (fun _ => wp_restartBatch_fill) fun _ => hf

lemma placed_setBatch (hw : f.wipBatch = some r) (hb : f.batches[r]? = some b)
    (h : f.fillPart.Placed) (hc : b'.countOfL2Blocks = b.countOfL2Blocks)
    (ht : b'.countOfTxs = b.countOfTxs) : (f.setBatch r b').fillPart.Placed := by
  intro blk hl
  obtain ⟨hbt, hp⟩ := h blk hl
  refine ⟨hbt, fun x hx => ?_⟩
  obtain rfl := Option.mem_unique (wip?_setBatch hw hb) hx
  have ha : f.batchAt f.wipBatch = .ok (r, b) := batchAt_ok_iff.mpr ⟨hw, hb⟩
  have hct := hp _ (wip?_of_batchAt ha)
  simp only [HeapBatch.filling] at hct ⊢
  rwa [hc, ht]

variable {tx : TxTracker} {res : ExecutedTx}

lemma wp_acceptTx_fill (h : f.fillPart.Placed) : EndsPlaced cfg (acceptTx tx res) f := by
  refine wp_fill (Q := fun _ => Placed) stable_placed h fun f a f' hP hf => ?_
  obtain ⟨wip, ha, hf⟩ := ok_of_bind hf
  obtain ⟨blk, hl, hf⟩ := ok_of_bind hf
  obtain ⟨w, -, -, rfl⟩ := bind_pair_inj hf
  refine ⟨⟨_, _, some _, rfl⟩, fun blk' hb => ?_⟩
  cases hb
  refine ⟨(hP blk (deref_ok_iff.mp hl)).1, fun b _ => .inr (.inl ?_)⟩
  simp [L2Block.isEmpty, L2Block.addTx]

lemma wp_handleTxResp_fill (h : f.fillPart.Placed) :
    EndsPlaced cfg (handleProcessTransactionResponse cfg tx res) f := by
  have hs := stable_placed
  refine (wp_fill (Q := fun _ => Placed) hs h fun f a f' hP hf => ?_).seq fun taken f hf => ?_
  · obtain ⟨wip, ha, -, rfl⟩ := bind_pair_inj hf
    obtain ⟨hw, hb⟩ := batchAt_ok_iff.mp ha
    have hc := wip.2.toBatch.takeResources_counts res.usedZkCounters
      res.reservedZkCounters (UInt64.ofNat res.rawTx.bytes.length)
    exact ⟨⟨_, _, _, rfl⟩, placed_setBatch (b := wip.2) hw hb hP hc.1 hc.2⟩
  split_ifs
  · refine (wp_acceptTx_fill hf).seq fun _ f hf => ?_
    refine (wp_keepsFill hs (leaves_callWorker _) hf).seq fun _ f hf => ?_
    refine wp_fill (Q := fun _ => Placed) hs hf fun f a f' hP hf => ?_
    obtain ⟨wip, ha, -, rfl⟩ := bind_pair_inj hf
    obtain ⟨hw, hb⟩ := batchAt_ok_iff.mp ha
    exact ⟨⟨_, _, _, rfl⟩, placed_setBatch (b := wip.2) hw hb hP rfl rfl⟩
  · exact wp_keepsFill hs (leaves_callWorker _) hf
  · exact wp_keepsFill hs (leaves_callWorker _) hf

lemma wp_processTx_fill (h : f.fillPart.Placed) : EndsPlaced cfg (processTransaction cfg tx) f := by
  have hs := stable_placed
  refine wp_ask fun ans => ?_
  refine Wp.seq (Q := fun _ f => f.fillPart.Placed) ?_ fun _ f hf => ?_
  · cases ans with
    | failed => exact h
    | invalid => exact wp_keepsFill hs (leaves_callWorker _) h
    | notReady nonce balance =>
      exact (wp_keepsFill hs (leaves_callWorker _) h).seq fun _ _ hf => hf
    | executed res => exact wp_handleTxResp_fill h
  · refine wp_keepsFill hs (leaves_modify ?_) hf
    exact fun _ => rfl

lemma Roomy.closable (hr : f.Roomy cfg) (hp : f.fillPart.Placed) (ha : f.batchAt f.wipBatch =
    .ok wip) (hfl : isBatchResourcesMarginExhausted cfg wip.2.imRemainingResources = true ∨
    f.worker.NoneFits wip.2.imRemainingResources wip.2.imHighReservedZKCounters) :
    f.fillPart.Closable := by
  refine fun blk hl hem => .inr fun b hb hc => ?_
  obtain rfl := Option.mem_unique (wip?_of_batchAt ha) hb
  obtain ⟨-, hm, hf⟩ := hr wip blk ha hl (hp blk hl).1 hem hc
  rcases hfl with he | hn
  · rw [hm] at he
    cases he
  · exact hf hn

lemma wp_bestFit_fill (h : f.fillPart.Placed) :
    (fillOutline cfg).Wp .main (fun best f => f.fillPart.Placed ∧
    (best = .error .errNoFittingTransaction → f.fillPart.Closable)) getBestFittingTx f := by
  have hp := stable_placed
  refine wp_ask fun ngr => wp_ask fun sc => ?_
  refine (wp_lookFill hp h).seq fun wip f hf => ?_
  have hs : Stable fun p => p.Placed ∧ p.wip? = some wip.2.filling :=
    hp.and fun _ _ hP hrl => hrl.wip?.trans hP
  refine wp_actFill (Q := fun (best : Except WorkerError TxTracker) p => p.Placed ∧
    (best = .error .errNoFittingTransaction → p.Closable)) hs
    ⟨hf.1, wip?_of_batchAt hf.2⟩ fun f best f' hP hi hf hrm => ?_
  obtain ⟨⟨w, best'⟩, hc, hf⟩ := ok_of_bind hf
  cases hf
  refine ⟨⟨hi.deadline, hi.emptyClosed⟩, hP.1, fun hbs => ?_⟩
  obtain rfl := hbs
  have hn := Worker.noneFits_of_getBestFittingTx ngr.2 (returned_ok_iff.mp hc)
  obtain ⟨r, hr, b, hb, hl⟩ : ∃ r, f.wipBatch = some r ∧ ∃ b, f.batches[r]? = some b ∧
      b.filling = wip.2.filling := by
    obtain ⟨r, hr, hx⟩ := Option.bind_eq_some_iff.mp hP.2
    rw [fillPart, getElem?_map] at hx
    obtain ⟨b, hb, hl⟩ := Option.map_eq_some_iff.mp hx
    exact ⟨r, hr, b, hb, hl⟩
  have ha : f.batchAt f.wipBatch = .ok (r, b) := batchAt_ok_iff.mpr ⟨hr, hb⟩
  have hm : b.imRemainingResources = wip.2.imRemainingResources :=
    congrArg Filling.imRemainingResources hl
  have hh : b.imHighReservedZKCounters = wip.2.imHighReservedZKCounters :=
    congrArg Filling.imHighReservedZKCounters hl
  rw [← hm, ← hh] at hn
  exact hrm.roomy.closable hP.1 ha (.inr hn)

lemma closable_of_checkFinalize {deadline md : Bool} (hr : f.Roomy cfg)
    (hp : f.fillPart.Placed) (hi : f.fillPart.Inv) (ha : f.batchAt f.wipBatch = .ok wip)
    (h : checkIfFinalizeBatch cfg wip.2 (f.nextForcedBatchDeadline && deadline) md = true) :
    f.fillPart.Closable := by
  rw [checkIfFinalizeBatch] at h
  simp only [Bool.or_eq_true, Bool.and_eq_true, decide_eq_true_eq] at h
  rcases h with ((⟨hmax, htxs⟩ | hmargin) | hdeadline) | ⟨hcnt, -⟩
  · refine fun blk hl he => .inr fun b hb hz => ?_
    obtain rfl := Option.mem_unique (wip?_of_batchAt ha) hb
    have htxs0 : wip.2.countOfTxs = 0 := by
      rcases (hp blk hl).2 _ hb with hn | hn | htxs0
      · exact absurd hz hn
      · exact absurd (he.symm.trans hn) nofun
      · exact htxs0
    rw [htxs0] at htxs
    have hzero : cfg.batchConstraints.maxTxsPerBatch.toInt64.toInt = (0 : Int64).toInt :=
      htxs.antisymm (hr wip blk ha hl (hp blk hl).1 he hz).1
    exact hmax (congrArg Int64.toUInt64 (Int64.toInt_inj.mp hzero))
  · exact hr.closable hp ha (.inl hmargin)
  · exact fun _ _ _ => .inl (hi.deadline hdeadline.1)
  refine fun blk hl he => .inr fun b hb => ?_
  obtain rfl := Option.mem_unique (wip?_of_batchAt ha) hb
  exact hcnt

lemma wp_checkBatch_fill (h : f.fillPart.Placed) : EndsPlaced cfg (checkBatch cfg) f := by
  have hs := stable_placed
  refine (wp_keepsFill hs (leaves_look _) h).seq fun halted f hf => ?_
  refine (wp_when (Q := fun _ f => f.fillPart.Placed) (fun _ => ?_) fun _ => hf).seq
    fun _ f hf => ?_
  · trivial
  refine wp_ask fun deadline => wp_ask fun md => ?_
  refine (wp_actFill (Q := fun wip p => p.Placed ∧
    (checkIfFinalizeBatch cfg wip.1 (wip.2 && deadline) md = true → p.Closable)) hs hf fun f wip f'
    hP hi hf hr => ?_).seq fun wip f hf => ?_
  · obtain ⟨wip', hl, rfl, rfl⟩ := bind_pair_inj hf
    obtain ⟨wip, ha, hl⟩ := ok_of_bind hl
    cases hl
    exact ⟨hi, hP, closable_of_checkFinalize hr.roomy hP hi ha⟩
  exact wp_when (fun hn => wp_finalizeBatch_fill (hf.2 hn)) fun _ => hf.1

lemma wp_finalizeBatches_fill (h : f.fillPart.Placed) : EndsPlaced cfg (finalizeBatches cfg) f := by
  have hs := stable_placed
  refine mainKeeps_finalizeBatches (J := fun f => f.fillPart.Placed) (fun f h => ?_) (fun _ =>
    wp_l2Reorg_fill) (fun _ _ => wp_finalizeL2Block_fill) (fun _ _ h => ?_) (fun _ =>
    wp_bestFit_fill) (fun _ _ hf => wp_finalizeBatch_fill (hf rfl))
    (fun _ _ h _ => wp_processTx_fill h) (fun _ => wp_checkBatch_fill) f h
  · exact (wp_keepsFill hs (leaves_look _) h).mono fun _ _ h => ⟨h, fun _ => h⟩
  · exact wp_keepsFill hs (leaves_look _) h

lemma wp_start_fill : EndsPlaced cfg (start cfg) f := by
  refine wp_initBatch_fill.seq fun _ f hf => ?_
  refine (wp_initL2Block_fill hf).seq fun _ f hf => ?_
  refine wp_keepsFill stable_placed (leaves_modify ?_) hf.1
  exact fun _ => rfl
end

lemma leaves_of_behind {code : Run α} (h : StaysBehind code) : LeavesFill code := by
  have hf : ∀ f : Finalizer, f.front.fillPart = f.fillPart := by
    intro f
    simp only [fillPart, front, map_map]
    rfl
  refine h.mono (fun f f' hs => ?_) fun _ _ => trivial
  rw [← hf f', hs.eq, hf]

variable {cfg : FinalizerCfg}

lemma wp_leavesFill {i : Goroutine} {code : Run Unit} (hi : i ≠ .main) (hc : LeavesFill code) :
    (fillOutline cfg).Wp i (fun _ f => (fillOutline cfg).loop i f) code f :=
  ((sees_fillPart cfg).wp_within (P := fun _ => True) hc (fun _ _ h _ => h) trivial).mono
    fun _ _ _ hm => absurd hm hi

lemma wp_checkForcedBatches_fill : (fillOutline cfg).Wp .forced
    (fun _ f => (fillOutline cfg).loop .forced f) checkForcedBatches f := by
  refine wp_ask fun fb => ?_
  refine wp_action (fun _ _ _ _ _ _ => trivial) fun f a f' _ hi hr hf _ => ?_
  cases hf
  have hm : f.nextForcedBatchesMux = false := by
    simp only [Bool.and_eq_true, Bool.not_eq_true'] at hr
    exact hr.2
  have hfr : (f.nextForcedBatches ++ [fb]).insertionSort (· ≤ ·) ≠ [] := by
    refine ne_nil_of_length_pos ?_
    rw [length_insertionSort, length_append]
    exact Nat.succ_pos _
  refine ⟨⟨fun _ => hfr, hi.emptyClosed⟩, fun j _ _ => ?_, nofun⟩
  refine ⟨rfl, rfl, rfl, rfl, fun _ => hfr, fun hl => ?_⟩
  exact absurd (hm.symm.trans hl) nofun

variable (cfg : FinalizerCfg)

lemma fillOutline_valid (G : TxTracker → Prop) :
    (fillOutline cfg).Valid (openNewWIPL2Block cfg) (body cfg G) where
  loop_stable _ _ _ hloop hrely hi := stable_placed _ _ (hloop hi) (hrely hi)
  proc i args _ f hpre := by
    obtain ⟨rfl, hc⟩ := hpre
    exact wp_openL2Block_fill hc
  body i f hloop := by
    cases i with
    | main => exact (wp_finalizeBatches_fill (hloop rfl)).mono fun _ _ hf _ => hf
    | process => exact wp_leavesFill nofun (leaves_of_behind behind_processL2Blocks)
    | store => exact wp_leavesFill nofun (leaves_of_behind (behind_storeL2Blocks cfg))
    | forced => exact wp_checkForcedBatches_fill
    | pool =>
      refine wp_leavesFill nofun (leaves_of_behind (within_loadFromPool ?_ cfg G))
      exact fun _ _ => ⟨rfl⟩

lemma holds_startProcess_fill (state : List StateBatch) :
    (fillOutline cfg).Holds (startProcess cfg state) where
  inv := ⟨nofun, rfl⟩
  wp i := by
    cases i with
    | main => exact wp_start_fill.mono fun _ _ hf _ => hf
    | _ => exact nofun

/-- If there is room in batches without L2 blocks, `closeWIPBatch` is never called for one, and at
`ErrNoFittingTransaction` the batch has L2 blocks or the L2 block in progress is not empty. -/
theorem not_emptyClosed_of_hasRoom {cfg : FinalizerCfg} {G : TxTracker → Prop}
    {state : List StateBatch} {c : Process Finalizer NewL2BlockArgs Fault Goroutine}
    (h : Reaches cfg G (HasRoom cfg) state c) :
    c.shared.emptyClosed = false ∧
    ∀ wip block, c.shared.batchAt c.shared.wipBatch = .ok wip → c.shared.wipL2Block = some block →
      block.batch = c.shared.wipBatch → c.shared.Roomy cfg → ∀ (n : ℕ+) schedule w,
        c.shared.worker.getBestFittingTx wip.2.imRemainingResources
          wip.2.imHighReservedZKCounters n schedule = .ok (w, .error .errNoFittingTransaction) →
        wip.2.countOfL2Blocks ≠ 0 ∨ block.isEmpty = false := by
  have hh : (fillOutline cfg).Holds c := (fillOutline_valid cfg G).sound (fun c hc => by
    rw [hc]
    exact holds_startProcess_fill cfg state) h
  refine ⟨hh.inv.emptyClosed, fun wip block hat hbl hbt hr n schedule w hbs => ?_⟩
  rw [or_iff_not_imp_left, not_not]
  intro hcn
  refine Bool.eq_false_iff.mpr fun he => ?_
  exact (hr wip block hat hbl hbt he hcn).2.2 (Worker.noneFits_of_getBestFittingTx n.2 hbs)

def fullTx : TxTracker :=
  { plainTx 1 0 1 0 with reservedZKCounters := { zeroCounters with gasUsed := 100 } }

open Evolves renaming act → go, action → acts, answer → hears

/-- The empty L2 block uses gas, so the transaction does not fit, and the finalizer closes
the batch and halts. -/
theorem closeWIPBatch_emptyBatch :
    plainCfg.batchConstraints.isWithinConstraints fullTx.reservedZKCounters = true ∧
    ∃ c, Reaches plainCfg (fun tx => tx = fullTx) (fun _ _ => True) plainBatches c ∧
    c.shared.emptyClosed = true ∧ c.shared.haltFinalizer = true ∧ c.code .main = .halt := by
  refine ⟨by decide, ?_⟩
  have hn : Process.Going (openNewWIPL2Block plainCfg) (body plainCfg fun tx => tx = fullTx)
      (fun _ _ => True) (fun c => c = startProcess plainCfg plainBatches)
      (startProcess plainCfg plainBatches) := by
    refine ⟨.start rfl, fun i fault => ?_⟩
    cases i with
    | _ => nofun
  have hs := hn.evolve .main rfl (by
    iterate 2 apply go rfl
    apply hears (some 0)
    apply Evolves.call
    apply hears ⟨0, 0, false⟩
    iterate 2 apply go rfl
    apply hears (some (plainResponse 1))
    iterate 3 apply go rfl
    exact .refl _ _)
  have hp := hs.evolveBody .pool rfl (by
    apply hears ⟨fullTx, rfl⟩
    apply hears Worker.plainState
    apply go rfl
    exact .refl _ _)
  have hc := hp.evolveBody .main rfl (by
    apply go rfl
    apply hears false
    apply go rfl
    apply hears 1
    apply hears [0, 0, 0]
    iterate 8 apply go rfl
    exact .refl _ _)
  exact ⟨_, hc.reaches, rfl, rfl, rfl⟩

lemma hasRoom_of_noTxs {f' : Finalizer} (hw : f.worker.txSortedList.sorted.isEmpty = true)
    (hm : (f.batches.all fun b =>
    !isBatchResourcesMarginExhausted plainCfg b.imRemainingResources) = true)
    (hf : (f.batches.all fun b => f'.wipL2Block.toList.all fun blk =>
    (b.toBatch.takeResources blk.usedZKCountersOnNew blk.reservedZKCountersOnNew
    blk.bytes).2 = (true, false)) = true) : HasRoom plainCfg f f' where
  roomy wip blk hat _ _ _ _ := by
    have hb := mem_of_getElem? (batchAt_ok_iff.mp hat).2
    refine ⟨by decide, by simpa using all_eq_true.mp hm _ hb, fun hn => hn.ready ?_⟩
    exact isEmpty_iff.mp hw
  fits wip blk block' hat _ hblk' _ _ _ := by
    have hb := mem_of_getElem? (batchAt_ok_iff.mp hat).2
    have ha := all_eq_true.mp hf _ hb
    rw [hblk'] at ha
    simpa using ha

/-- The timer closes an L2 block, and then its batch is closed since it is old. -/
theorem not_emptyClosed_of_hasRoom_timer : ∃ c, Reaches plainCfg PlainTx (HasRoom plainCfg)
    plainBatches c ∧ c.shared.closings = 1 ∧ c.shared.emptyClosed = false := by
  have hs := (plainGoing_start (HasRoom plainCfg)).evolve .main rfl (by
    iterate 2 apply acts rfl rfl (hasRoom_of_noTxs rfl rfl rfl)
    apply hears (some 0)
    apply Evolves.call
    apply hears ⟨0, 0, false⟩
    iterate 2 apply acts rfl rfl (hasRoom_of_noTxs rfl rfl rfl)
    apply hears (some (plainResponse 0))
    iterate 3 apply acts rfl rfl (hasRoom_of_noTxs rfl rfl rfl)
    exact .refl _ _)
  have hm := hs.evolveBody .main rfl (by
    apply acts rfl rfl (hasRoom_of_noTxs rfl rfl rfl)
    apply hears true
    iterate 7 apply acts rfl rfl (hasRoom_of_noTxs rfl rfl rfl)
    apply hears false
    apply acts rfl rfl (hasRoom_of_noTxs rfl rfl rfl)
    apply Evolves.call
    apply hears ⟨0, 0, false⟩
    iterate 2 apply acts rfl rfl (hasRoom_of_noTxs rfl rfl rfl)
    apply hears (some (plainResponse 0))
    iterate 2 apply acts rfl rfl (hasRoom_of_noTxs rfl rfl rfl)
    apply hears 1
    apply hears [0, 0]
    iterate 4 apply acts rfl rfl (hasRoom_of_noTxs rfl rfl rfl)
    apply hears false
    apply hears true
    iterate 7 apply acts rfl rfl (hasRoom_of_noTxs rfl rfl rfl)
    exact .refl _ _)
  exact ⟨_, hm.reaches, rfl, (not_emptyClosed_of_hasRoom hm.reaches).1⟩

end Finalizer

end EthdaNode.Sequencer
