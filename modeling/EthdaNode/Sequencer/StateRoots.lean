import EthdaNode.Sequencer.BatchChain
import EthdaNode.Sequencer.FinalizerFrames

/-!
# State roots

`Roots` says from which state root an L2 block should be executed: from the new root of
the block before it, or, after an L2 block reorg, from the root of the last stored
block. `RootPart` is what the goroutines of the finalizer do about the roots, and `Inv`
is its invariant.
-/

namespace EthdaNode.Sequencer

open Option List

/-! ## The roots of a run -/

/-- The root for the next L2 block, the root of the last stored one, and the batch of the last block
processed since the start or reorg. -/
structure Roots where
  root : Hash
  stored : Hash
  last : Option BatchRef

namespace Roots

variable (s : Roots)

def after : Event → Roots
  | .propagated _ _ _ => s
  | .executed _ _ none => s
  | .executed batch _ (some newStateRoot) => { s with root := newStateRoot, last := some batch }
  | .stored root _ => { s with stored := root }
  | .reorged _ _ => { s with root := s.stored, last := none }

def afterAll (trace : List Event) : Roots := trace.foldl after s

/-- An L2 block is executed from its start root, and the next batch takes it over from the batch of
the last block. -/
def Fits : Event → Prop
  | .propagated previous _ root => root = s.root ∧ ∀ batch, s.last = some batch → batch = previous
  | .executed _ oldStateRoot _ => oldStateRoot = s.root
  | .stored _ _ => True
  | .reorged _ _ => True

def Chained : Roots → List Event → Prop
  | _, [] => True
  | s, event :: trace => s.Fits event ∧ (s.after event).Chained trace

lemma afterAll_concat (trace : List Event) (event : Event) :
    s.afterAll (trace ++ [event]) = (s.afterAll trace).after event := by
  rw [afterAll, List.foldl_append]
  rfl

lemma chained_concat {s : Roots} {trace : List Event} {event : Event} :
    s.Chained (trace ++ [event]) ↔ s.Chained trace ∧ (s.afterAll trace).Fits event := by
  induction trace generalizing s with
  | nil => exact ⟨fun h => ⟨trivial, h.1⟩, fun h => ⟨h.2, trivial⟩⟩
  | cons first trace ih =>
    rw [List.cons_append, Chained, Chained, ih, and_assoc]
    rfl

end Roots

def HeapBatch.info (b : HeapBatch) : BatchInfo :=
  ⟨b.batchNumber, b.countOfL2Blocks, b.finalStateRoot⟩

structure RootPart where
  batches : List BatchInfo
  wipBatch : Option BatchRef
  pipBatch : Option BatchRef
  sipBatch : Option BatchRef
  closing : Option BatchRef
  toProcess : List PendingL2Block
  processing : Option PendingL2Block
  processBusy : Bool
  toStore : List PendingL2Block
  storing : Bool
  l2BlockReorg : Bool
  rows : List (UInt64 × Hash)
  roots : Roots

namespace RootPart

/-- The batches before the one in progress: the batch in process, and those of L2 blocks not
processed. -/
def refs (p : RootPart) : List BatchRef :=
  p.pipBatch.toList ++ (p.processing.toList ++ p.toProcess).filterMap PendingL2Block.batch

/-- The batches are a chain up to the one in progress, which is also the last one before it if it
has L2 blocks. -/
structure Linked (p : RootPart) (root : Hash) : Prop where
  chain : BatchChain p.batches (p.refs ++ p.wipBatch.toList) root
  counted : ∀ w b, p.wipBatch = some w → p.closing = none → p.batches[w]? = some b →
    b.count ≠ 0 → p.refs.getLast? = some w

/-- The invariant of the roots. After an error of an L2 block nothing is known of the batches until
the reorg. -/
structure Inv (p : RootPart) : Prop where
  stored_eq : ∀ row, p.rows.head? = some row → row.2 = p.roots.stored
  sip_number : ∀ s, p.sipBatch = some s → ∃ b, p.batches[s]? = some b ∧
    ∀ row, p.rows.head? = some row → row.1 = b.number
  busy : p.processBusy = false → p.processing = none
  linked : p.l2BlockReorg = false → p.Linked p.roots.root
  last_eq : p.l2BlockReorg = false → p.processing = none →
    ∀ batch, p.roots.last = some batch → p.pipBatch = some batch

def ProcessIdle (p : RootPart) : Prop := p.toProcess = [] ∧ p.processBusy = false

structure Idle (p : RootPart) : Prop where
  process : p.ProcessIdle
  toStore : p.toStore = []
  storing : p.storing = false

/-! ## Changes by the main loop -/

section
variable {p : RootPart} {root : Hash} {w : BatchRef} {b : BatchInfo}

lemma Linked.countUp (h : p.Linked root) (hb : p.batches[w]? = some b) : Linked { p with
    batches := p.batches.set w { b with count := b.count + 1 }
    closing := some w } root where
  chain := h.chain.set hb rfl rfl
  counted v c _ hc := by cases hc

variable {blk : PendingL2Block}

lemma Linked.send (h : p.Linked root) (hw : p.wipBatch = some w) (hb : blk.batch = some w) :
    Linked { p with toProcess := p.toProcess ++ [blk], closing := none } root := by
  have hr : refs { p with toProcess := p.toProcess ++ [blk], closing := none } = p.refs ++ [w] := by
    simp [refs, hb]
  have hc := h.chain
  rw [hw] at hc
  refine ⟨?_, fun v c hv _ _ _ => ?_⟩
  · rw [hr, hw]
    refine hc.concat getLast?_concat (.inl rfl) (hc.valid w ?_)
    simp
  · rw [hr, getLast?_concat, ← hv, hw]

lemma Linked.closeWip (h : p.Linked root) (hl : p.refs.getLast? = some w) :
    Linked { p with wipBatch := none } root where
  chain := by
    show BatchChain p.batches (p.refs ++ []) root
    rw [List.append_nil]
    refine h.chain.left ?_
    rintro hn
    rw [hn] at hl
    cases hl
  counted v c hv := by cases hv

lemma Linked.openWip (h : p.Linked root) (hw : p.wipBatch = none)
    (hl : p.refs.getLast? = some w) (hb : p.batches[w]? = some b) {new : BatchInfo}
    (hm : new.number = b.number + 1) (hcn : new.count = 0) :
    Linked { p with
    batches := p.batches ++ [new]
    wipBatch := some p.batches.length } root := by
  have hh := h.chain.append new
  rw [hw, toList_none, List.append_nil] at hh
  have hn : (p.batches ++ [new])[p.batches.length]? = some new := by simp
  refine ⟨hh.concat hl (.inr ⟨b, new, ?_, hn, hm⟩) (lt_of_getElem? hn), fun v c hv _ hc he => ?_⟩
  · rwa [getElem?_append_left (lt_of_getElem? hb)]
  cases hv
  obtain rfl := mem_unique hn hc
  exact absurd hcn he

lemma Inv.countUp (h : p.Inv) (hb : p.batches[w]? = some b) : Inv { p with
    batches := p.batches.set w { b with count := b.count + 1 }
    closing := some w } :=
  { h with
    sip_number := fun s hs => by
      obtain ⟨c, hc, hw⟩ := h.sip_number s hs
      have hk : KeepsNumbers p.batches
          (p.batches.set w { b with count := b.count + 1 }) := keepsNumbers_set hb rfl
      obtain ⟨c', hc', hn⟩ := hk s c hc
      exact ⟨c', hc', fun row hr => (hw row hr).trans hn.symm⟩
    linked := fun hrr => (h.linked hrr).countUp hb }

lemma Inv.send (h : p.Inv) (hw : p.wipBatch = some w) (hb : blk.batch = some w) :
    Inv { p with toProcess := p.toProcess ++ [blk], closing := none } :=
  { h with linked := fun hr => (h.linked hr).send hw hb }

lemma Inv.closeWip (h : p.Inv) (hl : p.l2BlockReorg = false → p.refs.getLast? = some w) :
    Inv { p with wipBatch := none } :=
  { h with linked := fun hr => (h.linked hr).closeWip (hl hr) }

lemma Inv.openWip (h : p.Inv) (hw : p.wipBatch = none)
    (hl : p.l2BlockReorg = false → p.refs.getLast? = some w)
    (hb : p.batches[w]? = some b) {new : BatchInfo} (hn : new.number = b.number + 1)
    (hcn : new.count = 0) :
    Inv { p with
    batches := p.batches ++ [new]
    wipBatch := some p.batches.length } :=
  { h with
    sip_number := fun s hs => by
      obtain ⟨c, hc, hrw⟩ := h.sip_number s hs
      exact ⟨c, by rwa [getElem?_append_left (lt_of_getElem? hc)], hrw⟩
    linked := fun hr =>
      (h.linked hr).openWip hw (hl hr) hb hn hcn }

lemma Inv.closeSip (h : p.Inv) : Inv { p with sipBatch := none } :=
  { h with
    sip_number := fun s hs => by cases hs
    linked := fun hr => ⟨(h.linked hr).chain, (h.linked hr).counted⟩ }
end

structure Halted (p : RootPart) : Prop where
  idle : p.Idle
  fresh : p.l2BlockReorg = false → p.roots.root = p.roots.stored ∧ p.roots.last = none

structure Restarting (p : RootPart) : Prop extends Halted p where
  linked : p.Linked p.roots.stored

section
variable {p : RootPart} {w : BatchRef} {b : BatchInfo} {row : UInt64 × Hash}

lemma Restarting.closeWip (h : p.Restarting) (hl : p.refs.getLast? = some w) :
    Restarting { p with wipBatch := none } :=
  { h with
    idle := ⟨h.idle.process, h.idle.toStore, h.idle.storing⟩
    linked := h.linked.closeWip hl }

lemma Restarting.openWip (h : p.Restarting) (hw : p.wipBatch = none)
    (hl : p.refs.getLast? = some w) (hb : p.batches[w]? = some b) {new : BatchInfo}
    (hn : new.number = b.number + 1) (hc : new.count = 0) :
    Restarting { p with
    batches := p.batches ++ [new]
    wipBatch := some p.batches.length } :=
  { h with
    idle := ⟨h.idle.process, h.idle.toStore, h.idle.storing⟩
    linked := h.linked.openWip hw hl hb hn hc }

lemma Restarting.inv (h : p.Restarting)
    (hs : ∀ row, p.rows.head? = some row → row.2 = p.roots.stored)
    (hp : ∀ s, p.sipBatch = some s → ∃ b, p.batches[s]? = some b ∧
    ∀ row, p.rows.head? = some row → row.1 = b.number)
    (hb : p.processBusy = false → p.processing = none) : p.Inv where
  stored_eq := hs
  sip_number := hp
  busy := hb
  linked hreorg := by
    rw [(h.fresh hreorg).1]
    exact h.linked
  last_eq hreorg _ batch hl := by
    rw [(h.fresh hreorg).2] at hl
    cases hl

/-- `initWIPBatch`: a batch that was loaded from the state is also the one in process and the one
that is stored. -/
def initWip (p : RootPart) (new : BatchInfo) (loaded : Bool) : RootPart :=
  { p with
    batches := p.batches ++ [new]
    wipBatch := some p.batches.length
    pipBatch := if loaded then some p.batches.length else none
    sipBatch := if loaded then some p.batches.length else none }

lemma Halted.initWip (new : BatchInfo) (loaded : Bool) (h : p.Halted) (hi : p.Inv) (hr :
    p.rows.head? = some row) (ht : new.root = row.2) (hm : loaded = true → new.number = row.1)
    (hcn : loaded = false → new.count = 0) : (p.initWip new loaded).Restarting ∧
    (p.initWip new loaded).Inv := by
  have hn : (p.batches ++ [new])[p.batches.length]? = some new := by simp
  have hh := BatchChain.single hn
  rw [ht, hi.stored_eq row hr] at hh
  have hb : (p.processing.toList ++ p.toProcess).filterMap PendingL2Block.batch = [] := by
    rw [h.idle.process.1, hi.busy h.idle.process.2]
    rfl
  have hl : (p.initWip new loaded).Linked p.roots.stored := by
    refine ⟨?_, fun v c hv _ hc he => ?_⟩
    · simp only [refs, RootPart.initWip, hb]
      cases loaded with
      | false => exact hh
      | true => exact BatchChain.double_iff.mpr hh
    cases hv
    obtain rfl := mem_unique hn hc
    cases loaded with
    | false => exact absurd (hcn rfl) he
    | true =>
      simp only [refs, RootPart.initWip, hb]
      rfl
  have hrs : (p.initWip new loaded).Restarting :=
    ⟨⟨⟨h.idle.process, h.idle.toStore, h.idle.storing⟩, h.fresh⟩, hl⟩
  refine ⟨hrs, hrs.inv hi.stored_eq (fun s hs => ?_) hi.busy⟩
  rcases loaded with _ | _
  · cases hs
  cases hs
  refine ⟨new, hn, fun row' ho => ?_⟩
  obtain rfl := mem_unique hr ho
  exact (hm rfl).symm

lemma Restarting.restarted (h : p.Restarting) (hi : p.Inv) : Inv { p with
    l2BlockReorg := false
    roots := { p.roots with root := p.roots.stored, last := none } } where
  stored_eq := hi.stored_eq
  sip_number := hi.sip_number
  busy := hi.busy
  linked _ := ⟨h.linked.chain, h.linked.counted⟩
  last_eq _ _ batch hl := by cases hl
end

/-! ## Changes by the other goroutines -/

section
variable {p : RootPart} {r s : BatchRef} {b : BatchInfo} {blk : PendingL2Block}

structure Processing (p : RootPart) (block : PendingL2Block) : Prop where
  busy : p.processBusy = true
  processing : p.processing = some block

lemma Processing.refs_eq (h : p.Processing blk) (hb : blk.batch = some r) :
    p.refs = p.pipBatch.toList ++ r :: p.toProcess.filterMap PendingL2Block.batch := by
  rw [refs, h.processing]
  simp [hb]

lemma Inv.refs_take (h : p.Inv) (hb : p.processBusy = false)
    {rest : List PendingL2Block} (ht : p.toProcess = blk :: rest) :
    refs { p with toProcess := rest, processing := some blk, processBusy := true } = p.refs := by
  rw [refs, refs, h.busy hb, ht]
  rfl

lemma Inv.take (h : p.Inv) (hb : p.processBusy = false) {rest : List PendingL2Block}
    (ht : p.toProcess = blk :: rest) :
    Inv { p with toProcess := rest, processing := some blk, processBusy := true } := by
  have hr := h.refs_take hb ht
  refine ⟨h.stored_eq, h.sip_number, nofun, fun hrr => ?_, fun _ hn => nomatch hn⟩
  have hl := h.linked hrr
  exact ⟨hr ▸ hl.chain, hr ▸ hl.counted⟩

/-- The batch of the L2 block in process becomes the batch in process, and it and the
roots are changed. -/
def setPip (p : RootPart) (r : BatchRef) (b : BatchInfo) (roots : Roots) : RootPart :=
  { p with batches := p.batches.set r b, pipBatch := some r, roots := roots }

lemma Processing.getLast?_setPip (h : p.Processing blk) (hb : blk.batch = some r)
    (b : BatchInfo) (roots : Roots) : (p.setPip r b roots).refs.getLast? = p.refs.getLast? := by
  have hs : (p.setPip r b roots).Processing blk := ⟨h.busy, h.processing⟩
  rw [h.refs_eq hb, hs.refs_eq hb, getLast?_append_cons, getLast?_append_cons]
  rfl

lemma Linked.setPip {root : Hash} (h : p.Linked root) (hp : p.Processing blk) (hl : blk.batch =
    some r) (hb : p.batches[r]? = some b) {b' : BatchInfo} (hm : b'.number = b.number)
    (hcn : b'.count = b.count) (roots : Roots) : (p.setPip r b' roots).Linked b'.root := by
  have hs : (p.setPip r b' roots).Processing blk := ⟨hp.busy, hp.processing⟩
  have hh := h.chain
  rw [hp.refs_eq hl, List.append_assoc] at hh
  refine ⟨?_, fun w c hw hcl hc hn => ?_⟩
  · rw [hs.refs_eq hl]
    exact BatchChain.double_iff.mpr ((hh.right hb).setHead hb hm)
  rw [hp.getLast?_setPip hl]
  by_cases hr : r = w
  · subst hr
    refine h.counted r b hw hcl hb ?_
    rw [RootPart.setPip, getElem?_set_self (lt_of_getElem? hb)] at hc
    rw [← hcn, Option.some.inj hc]
    exact hn
  · rw [RootPart.setPip, getElem?_set_ne hr] at hc
    exact h.counted w c hw hcl hc hn

lemma Inv.setPip (h : p.Inv) (hp : p.Processing blk) (hbl : blk.batch = some r)
    (hb : p.batches[r]? = some b) {b' : BatchInfo} (hn : b'.number = b.number)
    (hcn : b'.count = b.count) {roots : Roots}
    (hrt : p.l2BlockReorg = false → b'.root = roots.root)
    (ht : roots.stored = p.roots.stored) : (p.setPip r b' roots).Inv where
  stored_eq row hw := (h.stored_eq row hw).trans ht.symm
  sip_number s hs := by
    obtain ⟨c, hc, hw⟩ := h.sip_number s hs
    obtain ⟨c', hc', hn⟩ := keepsNumbers_set hb hn s c hc
    exact ⟨c', hc', fun row hr => (hw row hr).trans hn.symm⟩
  busy hbusy := absurd (hbusy.symm.trans hp.busy) nofun
  linked hreorg := by
    have hl := (h.linked hreorg).setPip hp hbl hb hn hcn roots
    rwa [hrt hreorg] at hl
  last_eq _ hnone := absurd (hnone.symm.trans hp.processing) nofun

lemma Inv.root_eq (h : p.Inv) (hr : p.l2BlockReorg = false) (hp : p.pipBatch = some r)
    (hb : p.batches[r]? = some b) : b.root = p.roots.root := by
  refine (h.linked hr).chain.root_eq r b ?_ hb
  rw [refs, hp]
  rfl

lemma Inv.root_of_first (h : p.Inv) (hr : p.l2BlockReorg = false)
    (hp : p.Processing blk) (hl : blk.batch = some r) (hpp : p.pipBatch = none)
    (hb : p.batches[r]? = some b) : b.root = p.roots.root := by
  refine (h.linked hr).chain.root_eq r b ?_ hb
  rw [hp.refs_eq hl, hpp]
  rfl

/-- If the batch of an L2 block has the number of the batch in process, then it is that
batch. -/
lemma Inv.eq_pip (h : p.Inv) (hr : p.l2BlockReorg = false) (hp : p.Processing blk) (hl : blk.batch =
    some r) (hpp : p.pipBatch = some s) {c : BatchInfo} (hc : p.batches[s]? = some c)
    (hb : p.batches[r]? = some b) (hn : c.number = b.number) : r = s := by
  have hf := (h.linked hr).chain.follows
  rw [hp.refs_eq hl, hpp] at hf
  exact (List.isChain_cons_cons.mp hf).1.eq_of_number hc hb hn

lemma Inv.processed (h : p.Inv) (hp : p.Processing blk) (hb : blk.batch = some r)
    (hpp : p.pipBatch = some r)
    (hs : ∀ batch, p.roots.last = some batch → p.pipBatch = some batch)
    (toStore : List PendingL2Block) :
    Inv { p with processing := none, toStore := toStore } := by
  refine ⟨h.stored_eq, h.sip_number, fun _ => rfl, fun hr => ?_, fun _ _ => hs⟩
  have hl := h.linked hr
  have hh := hl.chain
  have hn := hl.counted
  rw [hp.refs_eq hb, hpp] at hh hn
  refine ⟨?_, fun w c hw hcl hc he => ?_⟩
  · simp only [refs, hpp]
    exact BatchChain.double_iff.mp hh
  · simp only [refs, hpp]
    exact hn w c hw hcl hc he

lemma Processing.getLast?_processed (h : p.Processing blk) (hb : blk.batch = some r)
    (hp : p.pipBatch = some r) (toStore : List PendingL2Block) :
    (refs { p with processing := none, toStore := toStore }).getLast? = p.refs.getLast? := by
  rw [h.refs_eq hb, refs, hp]
  exact (getLast?_cons_cons).symm

lemma Inv.discard (h : p.Inv) (hr : p.l2BlockReorg = true) :
    Inv { p with processing := none } where
  stored_eq := h.stored_eq
  sip_number := h.sip_number
  busy _ := rfl
  linked hfalse := absurd (hfalse.symm.trans hr) nofun
  last_eq hfalse := absurd (hfalse.symm.trans hr) nofun

lemma Inv.detect (h : p.Inv) (found : Bool) :
    Inv { p with l2BlockReorg := p.l2BlockReorg || found } where
  stored_eq := h.stored_eq
  sip_number := h.sip_number
  busy := h.busy
  linked hfalse := by
    have hl := h.linked (Bool.or_eq_false_iff.mp hfalse).1
    exact ⟨hl.chain, hl.counted⟩
  last_eq hfalse := h.last_eq (Bool.or_eq_false_iff.mp hfalse).1

lemma Inv.free (h : p.Inv) (hp : p.processing = none) :
    Inv { p with processBusy := false } where
  stored_eq := h.stored_eq
  sip_number := h.sip_number
  busy _ := hp
  linked hreorg := ⟨(h.linked hreorg).chain, (h.linked hreorg).counted⟩
  last_eq := h.last_eq

lemma Inv.setStoring (h : p.Inv) (toStore : List PendingL2Block)
    (sto : Bool) : Inv { p with toStore := toStore, storing := sto } where
  stored_eq := h.stored_eq
  sip_number := h.sip_number
  busy := h.busy
  linked hreorg := ⟨(h.linked hreorg).chain, (h.linked hreorg).counted⟩
  last_eq := h.last_eq

lemma Inv.store (h : p.Inv) (hb : p.batches[s]? = some b) {rows : List (UInt64 × Hash)}
    {root : Hash} (ho : ∀ row, rows.head? = some row → row = (b.number, root)) :
    Inv { p with
    rows := rows
    sipBatch := some s
    roots := { p.roots with stored := root } } where
  stored_eq row hr := by rw [ho row hr]
  sip_number s' hs := by
    cases hs
    exact ⟨b, hb, fun row hr => by rw [ho row hr]⟩
  busy := h.busy
  linked hreorg := ⟨(h.linked hreorg).chain, (h.linked hreorg).counted⟩
  last_eq := h.last_eq
end

/-! ## What the goroutines expect of each other -/

/-- What the other goroutines may do while the main loop runs. -/
structure MainRely (p p' : RootPart) : Prop where
  wipBatch : p'.wipBatch = p.wipBatch
  closing : p'.closing = p.closing
  counts : p'.batches.map (fun b => (b.number, b.count)) =
    p.batches.map fun b => (b.number, b.count)
  reorg : p'.l2BlockReorg = false → p.l2BlockReorg = false ∧ p'.refs.getLast? = p.refs.getLast?
  processIdle : p.ProcessIdle → p'.ProcessIdle
  idle : p.Idle → p' = p

/-- What the other goroutines may do while L2 blocks are processed. -/
structure ProcessRely (p p' : RootPart) : Prop where
  processBusy : p'.processBusy = p.processBusy
  processing : p'.processing = p.processing
  l2BlockReorg : p.processBusy = true → p'.l2BlockReorg = p.l2BlockReorg
  pipBatch : p.processBusy = true → p'.pipBatch = p.pipBatch
  root : p.processBusy = true → p'.roots.root = p.roots.root
  last : p.processBusy = true → p'.roots.last = p.roots.last

structure StoreRely (p p' : RootPart) : Prop where
  storing : p'.storing = p.storing

section
variable {p p' p'' : RootPart}

lemma MainRely.refl (p : RootPart) : MainRely p p :=
  ⟨rfl, rfl, rfl, fun h => ⟨h, rfl⟩, fun h => h, fun _ => rfl⟩

lemma MainRely.trans (h : MainRely p p') (h' : MainRely p' p'') : MainRely p p'' where
  wipBatch := h'.wipBatch.trans h.wipBatch
  closing := h'.closing.trans h.closing
  counts := h'.counts.trans h.counts
  reorg hr := by
    obtain ⟨he, hf⟩ := h'.reorg hr
    obtain ⟨hr, hs⟩ := h.reorg he
    exact ⟨hr, hf.trans hs⟩
  processIdle hidle := h'.processIdle (h.processIdle hidle)
  idle hidle := by
    obtain rfl := h.idle hidle
    exact h'.idle hidle

lemma ProcessRely.refl (p : RootPart) : ProcessRely p p :=
  ⟨rfl, rfl, fun _ => rfl, fun _ => rfl, fun _ => rfl, fun _ => rfl⟩

lemma ProcessRely.of_eq (hb : p'.processBusy = p.processBusy)
    (hp : p'.processing = p.processing) (hrr : p'.l2BlockReorg = p.l2BlockReorg)
    (hpp : p'.pipBatch = p.pipBatch) (hr : p'.roots = p.roots) : ProcessRely p p' :=
  ⟨hb, hp, fun _ => hrr, fun _ => hpp, fun _ => by rw [hr],
    fun _ => by rw [hr]⟩

lemma ProcessRely.trans (h : ProcessRely p p') (h' : ProcessRely p' p'') : ProcessRely p p'' where
  processBusy := h'.processBusy.trans h.processBusy
  processing := h'.processing.trans h.processing
  l2BlockReorg hbusy := (h'.l2BlockReorg (h.processBusy.trans hbusy)).trans (h.l2BlockReorg hbusy)
  pipBatch hbusy := (h'.pipBatch (h.processBusy.trans hbusy)).trans (h.pipBatch hbusy)
  root hbusy := (h'.root (h.processBusy.trans hbusy)).trans (h.root hbusy)
  last hbusy := (h'.last (h.processBusy.trans hbusy)).trans (h.last hbusy)

variable {w : BatchRef}

lemma MainRely.batch (h : MainRely p p') {b : BatchInfo} (hb : p.batches[w]? = some b) :
    ∃ b', p'.batches[w]? = some b' ∧ b'.number = b.number ∧ b'.count = b.count := by
  have hc := congrArg (fun l => l[w]?) h.counts
  simp only [getElem?_map, hb, map_some] at hc
  obtain ⟨b', hb', he⟩ := map_eq_some_iff.mp hc
  exact ⟨b', hb', congrArg Prod.fst he, congrArg Prod.snd he⟩

/-- While an L2 block is processed, the main loop does not find the goroutine idle. -/
lemma mainRely_of_busy (hb : p.processBusy = true) (hw : p'.wipBatch = p.wipBatch)
    (hl : p'.closing = p.closing) (hc : p'.batches.map (fun b => (b.number, b.count)) =
    p.batches.map fun b => (b.number, b.count)) (hr : p'.l2BlockReorg = false → p.l2BlockReorg =
    false ∧ p'.refs.getLast? = p.refs.getLast?) : MainRely p p' :=
  ⟨hw, hl, hc, hr, fun hi => absurd (hi.2.symm.trans hb) nofun,
    fun hi => absurd (hi.process.2.symm.trans hb) nofun⟩

/-- While an L2 block is stored, the main loop does not find the goroutines idle. -/
lemma mainRely_of_storing (hs : ¬p.Idle) (hw : p'.wipBatch = p.wipBatch) (hc : p'.closing =
    p.closing) (hb : p'.batches = p.batches) (hrr : p'.l2BlockReorg = p.l2BlockReorg)
    (hr : p'.refs = p.refs) (hi : p.ProcessIdle → p'.ProcessIdle) : MainRely p p' :=
  ⟨hw, hc, by rw [hb], fun h => ⟨hrr ▸ h, by rw [hr]⟩, hi,
    fun h => absurd h hs⟩

/-- The change is none for the goroutines that process and store L2 blocks. -/
structure MainStep (p p' : RootPart) : Prop where
  inv : p'.Inv
  process : ProcessRely p p'
  store : StoreRely p p'

variable (P : RootPart → Prop)

/-- The other goroutines do not disturb what the main loop knows. -/
def Stable : Prop := ∀ p p', P p → MainRely p p' → P p'

/-- There is no L2 block being closed; while the finalizer restarts, the batches start
from the stored root. -/
structure Ready (again : Bool) (p : RootPart) : Prop where
  closing : p.closing = none
  restarting : again = true → p.Restarting

structure Filled (again : Bool) (w : BatchRef) (number : UInt64) (p : RootPart) : Prop
    extends p.Ready again where
  wipBatch : p.wipBatch = some w
  batch : ∃ b, p.batches[w]? = some b ∧ b.number = number ∧ b.count ≠ 0

structure Closed (again : Bool) (w : BatchRef) (number : UInt64) (p : RootPart) : Prop
    extends p.Ready again where
  wipBatch : p.wipBatch = none
  batch : ∃ b, p.batches[w]? = some b ∧ b.number = number
  last : p.l2BlockReorg = false ∨ again = true → p.refs.getLast? = some w

lemma stable_halted : Stable fun p => p.closing = none ∧ p.Halted := by
  intro p p' hp hr
  rw [hr.idle hp.2.idle]
  exact hp

variable (ag : Bool)

lemma stable_ready : Stable (Ready ag) := by
  intro p p' hp hr
  refine ⟨hr.closing.trans hp.closing, fun ha => ?_⟩
  rw [hr.idle (hp.restarting ha).idle]
  exact hp.restarting ha

lemma stable_filled (w : BatchRef) (number : UInt64) : Stable (Filled ag w number) := by
  intro p p' hp hr
  obtain ⟨b, hb, hm, ht⟩ := hp.batch
  obtain ⟨b', hb', hn, hc⟩ := hr.batch hb
  exact ⟨stable_ready ag p p' hp.toReady hr, hr.wipBatch.trans hp.wipBatch,
    b', hb', hn.trans hm, hc ▸ ht⟩

lemma stable_closed (w : BatchRef) (number : UInt64) : Stable (Closed ag w number) := by
  intro p p' hp hr
  obtain ⟨b, hb, hn⟩ := hp.batch
  obtain ⟨b', hb', hu, -⟩ := hr.batch hb
  refine ⟨stable_ready ag p p' hp.toReady hr, hr.wipBatch.trans hp.wipBatch,
    ⟨b', hb', hu.trans hn⟩, fun hl => ?_⟩
  rcases hl with hrr | ha
  · obtain ⟨hrr, hf⟩ := hr.reorg hrr
    rw [hf]
    exact hp.last (.inl hrr)
  · rw [hr.idle (hp.restarting ha).idle]
    exact hp.last (.inr ha)

lemma Filled.closeWip {ag : Bool} {number : UInt64} (h : p.Filled ag w number) (hi : p.Inv) :
    MainStep p { p with wipBatch := none } ∧ Closed ag w number { p with wipBatch := none } := by
  obtain ⟨b, hb, hn, hc⟩ := h.batch
  have hl : p.l2BlockReorg = false ∨ ag = true → p.refs.getLast? = some w := by
    rintro (hr | ha)
    · exact (hi.linked hr).counted w b h.wipBatch h.closing hb hc
    · exact (h.restarting ha).linked.counted w b h.wipBatch h.closing hb hc
  have hinv' := hi.closeWip fun hr => hl (.inl hr)
  exact ⟨⟨hinv', .of_eq rfl rfl rfl rfl rfl, ⟨rfl⟩⟩, ⟨h.closing, fun ha => (h.restarting
    ha).closeWip (hl (.inr ha))⟩, rfl, ⟨b, hb, hn⟩, hl⟩

lemma Closed.openWip {ag : Bool} {number : UInt64} (h : p.Closed ag w number) (hi : p.Inv)
    (new : BatchInfo) (hn : new.number = number + 1) (hc : new.count = 0) :
    MainStep p { p with
    batches := p.batches ++ [new]
    wipBatch := some p.batches.length } ∧
    Ready ag { p with
    batches := p.batches ++ [new]
    wipBatch := some p.batches.length } := by
  obtain ⟨b, hb, rfl⟩ := h.batch
  have hinv' := hi.openWip h.wipBatch (fun hr => h.last (.inl hr)) hb hn hc
  refine ⟨⟨hinv', .of_eq rfl rfl rfl rfl rfl, ⟨rfl⟩⟩, h.closing, fun ha => ?_⟩
  exact (h.restarting ha).openWip h.wipBatch (h.last (.inr ha)) hb hn hc

/-! ## What is known while L2 blocks are processed -/

/-- The other goroutines do not disturb what is known while L2 blocks are processed. -/
def ProcessStable : Prop := ∀ p p', P p → ProcessRely p p' → P p'

structure Done (p : RootPart) : Prop where
  busy : p.processBusy = true
  processing : p.processing = none

structure Live (block : PendingL2Block) (p : RootPart) : Prop extends p.Processing block where
  reorg : p.l2BlockReorg = false
  last : ∀ batch, p.roots.last = some batch → p.pipBatch = some batch

structure Taken (block : PendingL2Block) (p : RootPart) : Prop extends p.Processing block where
  live : p.l2BlockReorg = false → p.Live block

/-- The batch of the L2 block is the batch in process, and the block starts from
`root`. -/
structure Starts (block : PendingL2Block) (r : BatchRef) (root : Hash) (p : RootPart) : Prop
    extends p.Processing block where
  reorg : p.l2BlockReorg = false
  pipBatch : p.pipBatch = some r
  root_eq : root = p.roots.root

variable (blk : PendingL2Block)

lemma processStable_processing : ProcessStable fun p => p.Processing blk :=
  fun _ _ hp hr => ⟨hr.processBusy.trans hp.busy, hr.processing.trans hp.processing⟩

lemma processStable_reorg : ProcessStable fun p => p.Processing blk ∧ p.l2BlockReorg = true :=
  fun p p' hp hr => ⟨processStable_processing blk p p' hp.1 hr,
  (hr.l2BlockReorg hp.1.busy).trans hp.2⟩

lemma processStable_done : ProcessStable Done :=
  fun _ _ hp hr => ⟨hr.processBusy.trans hp.busy, hr.processing.trans hp.processing⟩

lemma processStable_live : ProcessStable (Live blk) := by
  intro p p' hp hr
  refine ⟨processStable_processing blk p p' hp.toProcessing hr,
    (hr.l2BlockReorg hp.busy).trans hp.reorg, fun batch hb => ?_⟩
  rw [hr.pipBatch hp.busy]
  exact hp.last batch ((hr.last hp.busy).symm.trans hb)

lemma processStable_taken : ProcessStable (Taken blk) := by
  intro p p' hp hr
  refine ⟨processStable_processing blk p p' hp.toProcessing hr, fun hrr => ?_⟩
  rw [hr.l2BlockReorg hp.busy] at hrr
  exact processStable_live blk p p' (hp.live hrr) hr

lemma processStable_pip (r : BatchRef) : ProcessStable fun p => p.Live blk ∧ p.pipBatch = some r :=
  fun p p' hp hr => ⟨processStable_live blk p p' hp.1 hr, (hr.pipBatch hp.1.busy).trans hp.2⟩

lemma processStable_starts (r : BatchRef) (root : Hash) : ProcessStable (Starts blk r root) := by
  intro p p' hp hr
  exact ⟨processStable_processing blk p p' hp.toProcessing hr, (hr.l2BlockReorg hp.busy).trans
    hp.reorg, (hr.pipBatch hp.busy).trans hp.pipBatch, hp.root_eq.trans (hr.root hp.busy).symm⟩
end

end RootPart

end EthdaNode.Sequencer
