import EthdaNode.Sequencer.FinalizerBlocks
import EthdaNode.Sequencer.StateRoots

/-!
# The state roots of the finalizer

As long as no batch is closed while there are forced batches, every L2 block is executed
from the root where it should start: the goroutines keep the invariant of `RootPart`.
-/

namespace EthdaNode.Sequencer

open Go Go.Code Go.Outline List RootPart

namespace Finalizer

/-! ## The outline -/

variable (f : Finalizer)

/-- What matters of the finalizer for the state roots, if they were `start` when it
started. -/
def rootPart (start : Roots) : RootPart where
  batches := f.batches.map HeapBatch.info
  wipBatch := f.wipBatch
  pipBatch := f.pipBatch
  sipBatch := f.sipBatch
  closing := f.closing
  toProcess := f.pendingL2BlocksToProcess
  processing := f.processing
  processBusy := f.processBusy
  toStore := f.pendingL2BlocksToStore
  storing := f.storing.isSome
  l2BlockReorg := f.l2BlockReorg
  rows := f.state.map fun row => (row.batchNumber, row.stateRoot)
  roots := start.afterAll f.trace

/-- `closeAndOpenNewWIPBatch` finds no forced batches. -/
def NoForcedBatches (f' : Finalizer) : Prop := f'.closings ≠ f.closings → f.nextForcedBatches = []

def rootsOutline (start : Roots) : Outline Finalizer NewL2BlockArgs Fault Goroutine Bool where
  allowed f f' := NoForcedBatches f f' ∧ blocksOutline.inv f'
  inv f := start.Chained f.trace ∧ (f.rootPart start).Inv
  rely
    | .main, f, f' => (f.rootPart start).MainRely (f'.rootPart start)
    | .process, f, f' => (f.rootPart start).ProcessRely (f'.rootPart start)
    | .store, f, f' => (f.rootPart start).StoreRely (f'.rootPart start)
    | _, _, _ => True
  rely_refl i f := by
    cases i with
    | main => exact .refl _
    | process => exact .refl _
    | store => exact ⟨rfl⟩
    | _ => trivial
  rely_trans i f₁ f₂ f₃ h h' := by
    cases i with
    | main => exact h.trans h'
    | process => exact h.trans h'
    | store => exact ⟨h'.storing.trans h.storing⟩
    | _ => trivial
  loop
    | .main, f => f.closing = none
    | .process, f => f.processBusy = false
    | _, _ => True
  pre i _ again f := i = .main ∧ (f.rootPart start).Ready again
  post _ _ again f := (f.rootPart start).Ready again
  expected _ := True

/-! ## Code that leaves the roots -/

structure SameRoots (f f' : Finalizer) : Prop where
  eq : ∀ start, f'.rootPart start = f.rootPart start
  trace : f'.trace = f.trace

lemma rootPart_unfilled (x : Roots) : f.unfilled.rootPart x = f.rootPart x := by
  simp only [rootPart, unfilled, still, map_map]
  rfl

variable {f' f : Finalizer}

lemma SameUnfilled.sameRoots (h : SameUnfilled f f') : SameRoots f f' := by
  refine ⟨fun x => ?_, ?_⟩
  · rw [← rootPart_unfilled f, ← rootPart_unfilled f', h.eq]
  · have ht : f'.unfilled.trace = f.unfilled.trace := by rw [h.eq]
    exact ht

lemma Still.sameRoots (h : Still f f') : SameRoots f f' := h.sameUnfilled.sameRoots

lemma SameUnclosed.rootPart (h : SameUnclosed f f') (x : Roots) :
    f'.rootPart x = f.rootPart x ∨
    f'.rootPart x = { f.rootPart x with sipBatch := none } := by
  have hp : ∀ f : Finalizer, f.unclosed.rootPart x = { f.rootPart x with sipBatch := none } := by
    intro f
    simp only [Finalizer.rootPart, unclosed, still, map_map]
    rfl
  have he := hp f'
  rw [h.eq, hp f] at he
  rcases h.sipBatch with hs | hs
  · refine .inl ?_
    have hsip' : (f'.rootPart x).sipBatch = (f.rootPart x).sipBatch := hs
    generalize f'.rootPart x = p' at he hsip'
    generalize f.rootPart x = p at he hsip'
    cases p
    cases p'
    simp_all
  · refine .inr ?_
    have hsip' : (f'.rootPart x).sipBatch = none := hs
    rw [he, ← hsip']

lemma SameUnclosed.trace_eq (h : SameUnclosed f f') : f'.trace = f.trace := by
  have ht : f'.unclosed.trace = f.unclosed.trace := by rw [h.eq]
  exact ht

abbrev LeavesRoots {α : Type} (code : Run α) : Prop := code.Within SameRoots fun _ => True

lemma Stays.leavesRoots {α : Type} {code : Run α} (h : Stays code) : LeavesRoots code :=
  h.mono (fun _ _ => Still.sameRoots) fun _ _ => trivial

lemma leavesRoots_modify {g : Finalizer → Finalizer} (h : ∀ f x, (g f).rootPart x = f.rootPart x)
    (ht : ∀ f, (g f).trace = f.trace) : LeavesRoots (.modify g) :=
  within_modify fun f => ⟨h f, ht f⟩

lemma rootPart_setBatch (f : Finalizer) (x : Roots) (r : BatchRef) (b : HeapBatch) :
    (f.setBatch r b).rootPart x =
    { f.rootPart x with batches := (f.rootPart x).batches.set r b.info } := by
  simp only [rootPart, setBatch, map_set]

lemma rootPart_batches {x : Roots} {r : BatchRef} {b : HeapBatch}
    (hb : f.batches[r]? = some b) : (f.rootPart x).batches[r]? = some b.info := by
  rw [rootPart, getElem?_map, hb]
  rfl

section
variable {x : Roots} {f : Finalizer} {i : Goroutine}

lemma SameRoots.step {f' : Finalizer} (h : SameRoots f f') (hi : (rootsOutline x).inv f) :
    (rootsOutline x).inv f' ∧ (rootsOutline x).Guarantee i f f' := by
  refine ⟨⟨?_, ?_⟩, fun j _ => ?_⟩
  · rw [h.trace]
    exact hi.1
  · rw [h.eq]
    exact hi.2
  · have hr := (rootsOutline x).rely_refl j f
    cases j <;> simp only [rootsOutline, h.eq] at hr ⊢ <;> exact hr

variable {α : Type} {P : RootPart → Prop}

lemma wp_leavesRoots {code : Run α} (hc : LeavesRoots code)
    (ht : ∀ f f', P (f.rootPart x) → (rootsOutline x).rely i f f' → P (f'.rootPart x))
    (h : P (f.rootPart x)) : (rootsOutline x).Wp i (fun _ f => P (f.rootPart x)) code f := by
  refine wp_of_within hc (fun f f' hs hi => hs.step hi) ht (fun f f' hP _ hs => ?_) h
  rw [hs.eq]
  exact hP

lemma wp_lookRoots {g : Finalizer → Except Fault α} (hs : ∀ f f', P (f.rootPart x) →
    (rootsOutline x).rely i f f' → P (f'.rootPart x)) (h : P (f.rootPart x)) :
    (rootsOutline x).Wp i (fun a f => P (f.rootPart x) ∧ g f = .ok a) (.look g) f :=
  wp_look (fun _ _ _ _ _ => trivial) fun f' _ hr _ hf => ⟨hs f f' h hr, hf⟩

lemma wp_haltRoots {Q : α → Finalizer → Prop} : (rootsOutline x).Wp i Q halt f := by
  refine (wp_leavesRoots (P := fun _ => True) ?_ (fun _ _ h _ => h) trivial).seq
    fun _ _ _ => trivial
  exact leavesRoots_modify (fun _ _ => rfl) fun _ => rfl

/-! ## The main loop -/

lemma mainStep_guarantee (ht : f'.trace = f.trace)
    (h : (f.rootPart x).MainStep (f'.rootPart x)) (hi : (rootsOutline x).inv f) :
    (rootsOutline x).inv f' ∧ (rootsOutline x).Guarantee .main f f' := by
  refine ⟨⟨ht ▸ hi.1, h.inv⟩, fun j hj => ?_⟩
  cases j with
  | main => exact absurd rfl hj
  | process => exact h.process
  | store => exact h.store
  | _ => trivial

lemma wp_actRoots {ready : Finalizer → Bool} {g : Finalizer → Except Fault (α × Finalizer)} {Q : α →
    RootPart → Prop} (hs : Stable P) (h : P (f.rootPart x)) (hg : ∀ f a f', P (f.rootPart x) →
    (f.rootPart x).Inv → g f = .ok (a, f') → (rootsOutline x).allowed f f' → f'.trace = f.trace ∧
    (f.rootPart x).MainStep (f'.rootPart x) ∧ Q a (f'.rootPart x)) :
    (rootsOutline x).Wp .main (fun a f => Q a (f.rootPart x)) (.action ready g .ret) f := by
  refine wp_action (fun _ _ _ _ _ _ => trivial) fun f' a f'' hr hi _ hf ha => ?_
  obtain ⟨ht, hp, hQ⟩ := hg f' a f'' (hs _ _ h hr) hi.2 hf ha
  obtain ⟨hv, hgr⟩ := mainStep_guarantee ht hp hi
  exact ⟨hv, hgr, hQ⟩

lemma wp_modifyRoots {g : Finalizer → Finalizer} {Q : RootPart → Prop} (hs : Stable P)
    (h : P (f.rootPart x)) (hg : ∀ f, P (f.rootPart x) → (f.rootPart x).Inv →
    (rootsOutline x).allowed f (g f) → (g f).trace = f.trace ∧
    (f.rootPart x).MainStep ((g f).rootPart x) ∧ Q ((g f).rootPart x)) :
    (rootsOutline x).Wp .main (fun _ f => Q (f.rootPart x)) (.modify g) f := by
  refine wp_actRoots (Q := fun _ => Q) hs h fun f a f' hP hi hf ha => ?_
  cases hf
  exact hg f hP hi ha

lemma wp_unclosed {code : Run α} (hc : code.Within SameUnclosed OtherFault)
    (ht : Stable P) (hP : ∀ p : RootPart, P p → P { p with sipBatch := none })
    (h : P (f.rootPart x)) :
    (rootsOutline x).Wp .main (fun _ f => P (f.rootPart x)) code f := by
  refine wp_of_within (hc.mono (fun _ _ h => h) fun _ _ => trivial) (fun f f' hs hi => ?_) (fun f f'
    hP hr => ht _ _ hP hr) (fun f f' hf _ hs => ?_) h
  · refine mainStep_guarantee hs.trace_eq ?_ hi
    rcases hs.rootPart x with he | he
    · rw [he]
      exact ⟨hi.2, .refl _, ⟨rfl⟩⟩
    · rw [he]
      exact ⟨hi.2.closeSip, .of_eq rfl rfl rfl rfl rfl, ⟨rfl⟩⟩
  · rcases hs.rootPart x with he | he
    · rw [he]
      exact hf
    · rw [he]
      exact hP _ hf
end

section
variable {x : Roots} {cfg : FinalizerCfg} {f : Finalizer} {ag : Bool} {P : RootPart → Prop}

lemma wp_keepsRoots {α : Type} {code : Run α} (hs : Stable P) (hc : LeavesRoots code)
    (h : P (f.rootPart x)) : (rootsOutline x).Wp .main (fun _ f => P (f.rootPart x)) code f :=
  wp_leavesRoots hc (fun _ _ hP hr => hs _ _ hP hr) h

abbrev EndsReadyRoots {α : Type} (start : Roots) (again : Bool) (code : Run α)
    (f : Finalizer) : Prop :=
  (rootsOutline start).Wp .main (fun _ f => (f.rootPart start).Ready again) code f

abbrev KeepsReady {α : Type} (start : Roots) (again : Bool) (code : Run α) : Prop :=
  ∀ {f : Finalizer}, (f.rootPart start).Ready again → EndsReadyRoots start again code f

lemma stable_closing : Stable fun p => ∃ w, p.closing = some w ∧ p.wipBatch = some w := by
  rintro p p' ⟨w, hc, hw⟩ hr
  exact ⟨w, hr.closing.trans hc, hr.wipBatch.trans hw⟩

lemma wp_addToProcess_roots {blk : PendingL2Block}
    (h : ∃ w, (f.rootPart x).closing = some w ∧ (f.rootPart x).wipBatch = some w) :
    EndsReadyRoots x false (addPendingL2BlockToProcess blk) f := by
  refine wp_modifyRoots (Q := Ready false) stable_closing h
    fun f hP hi ha => ⟨rfl, ⟨?_, .of_eq rfl rfl rfl rfl rfl, ⟨rfl⟩⟩, rfl, nofun⟩
  obtain ⟨w, hl, hw⟩ := hP
  -- the block has the batch that counted it
  obtain ⟨r, -, hc, hb⟩ := ha.2.batch_eq ⟨f.closing, blk.batch⟩ mem_append_cons_self
  obtain rfl := Option.mem_unique hl hc
  exact hi.send hw hb

lemma wp_closeL2Block_roots : KeepsReady x false closeWIPL2Block := by
  intro f h
  refine (wp_lookRoots (fun _ _ => stable_ready false _ _) h).seq fun blk f hf => ?_
  refine (wp_actRoots (Q := fun _ p => ∃ w, p.closing = some w ∧ p.wipBatch = some w)
    (stable_ready false) hf.1 fun f a f' hP hi hf _ => ?_).seq fun _ f hf => ?_
  · obtain ⟨wip, ha, -, rfl⟩ := bind_pair_inj hf
    obtain ⟨hw, hb⟩ := batchAt_ok_iff.mp ha
    have hc := hi.countUp (rootPart_batches hb)
    refine ⟨rfl, ⟨?_, .of_eq rfl rfl rfl rfl rfl, ⟨rfl⟩⟩, wip.1, rfl, hw⟩
    simp only [rootPart, setBatch, map_set]
    exact hc
  refine (wp_keepsRoots stable_closing (stays_await _).leavesRoots hf).seq fun _ f hf => ?_
  refine (wp_addToProcess_roots hf).seq fun _ f hf => ?_
  refine (wp_keepsRoots (stable_ready false)
    (stays_deref other_nilPointer _).leavesRoots hf).seq fun _ f hf => ?_
  refine wp_ask fun sync => ?_
  refine (wp_keepsRoots (stable_ready false)
    (within_when stays_syncStateRoot.leavesRoots) hf).seq fun _ f hf => ?_
  refine wp_keepsRoots (stable_ready false) ?_ hf
  exact leavesRoots_modify (fun _ _ => rfl) fun _ => rfl

lemma wp_closeWIPBatch_roots (h : (f.rootPart x).Ready ag) : (rootsOutline x).Wp .main
    (fun number f => ∃ w, (f.rootPart x).Closed ag w number) closeWIPBatch f := by
  refine (wp_lookRoots (fun _ _ => stable_ready ag _ _) h).seq fun wip f hf => ?_
  obtain ⟨hr, ha⟩ := hf
  obtain ⟨hw, hb⟩ := batchAt_ok_iff.mp ha
  split_ifs with hc
  · exact (wp_keepsRoots (stable_ready ag) stays_emptyClosed.leavesRoots
      hr).seq fun _ _ _ => wp_haltRoots
  refine (wp_modifyRoots (Q := Closed ag wip.1 wip.2.batchNumber) (stable_filled ag wip.1
    wip.2.batchNumber) ⟨hr, hw, _, rootPart_batches hb, rfl, hc⟩ fun f hP hi _ => ?_).seq fun _ f
    hf => ⟨wip.1, hf⟩
  exact ⟨rfl, hP.closeWip hi⟩

lemma wp_haltOnBatch_roots {Q : Unit → Finalizer → Prop} :
    (rootsOutline x).Wp .main Q (haltOnBatchNumber cfg) f := by
  have hs : Stable fun _ => True := fun _ _ h _ => h
  refine (wp_keepsRoots hs stays_waitL2Blocks.leavesRoots trivial).seq fun _ f _ => ?_
  refine (wp_unclosed (unclosed_finalizeSIP cfg) hs (fun _ h => h) trivial).seq fun _ f _ => ?_
  refine (wp_keepsRoots hs (within_when stays_fatal.leavesRoots) trivial).seq fun _ f _ => ?_
  exact wp_haltRoots

lemma sameRoots_setBatch {r : BatchRef} {b b' : HeapBatch} (hb : f.batches[r]? = some b)
    (h : b'.info = b.info) : SameRoots f (f.setBatch r b') := by
  refine ⟨fun x => ?_, rfl⟩
  rw [rootPart_setBatch, h, set_of_getElem? (rootPart_batches hb)]

lemma leavesRoots_carryL2Block : LeavesRoots carryL2Block := by
  refine within_action (fun _ _ _ => trivial) fun f a f' hf => ?_
  rcases hb : f.wipL2Block with _ | blk
  · simp only [hb] at hf
    cases hf
    exact ⟨fun _ => rfl, rfl⟩
  simp only [hb] at hf
  obtain ⟨wip, ha, hf⟩ := ok_of_bind hf
  split_ifs at hf
  cases hf
  have hs : SameRoots f (f.setBatch wip.1 { wip.2 with
      toBatch := { (wip.2.toBatch.carryL2Block blk.usedZKCountersOnNew blk.bytes).1 with
        imStateRoot := blk.imStateRoot } }) :=
    sameRoots_setBatch (batchAt_ok_iff.mp ha).2 rfl
  exact ⟨hs.eq, rfl⟩

lemma leavesRoots_takeNewL2Block (resp : ProcessBatchResponse) :
    LeavesRoots (.act fun f => f.takeNewL2Block resp) := by
  refine within_action (fun _ _ _ => trivial) fun f a f' hf => ?_
  obtain ⟨r, b, b', blk, blk', -, hb, hs, -, -, -, rfl⟩ := takeNewL2Block_ok hf
  have he := (still_setBatch hb hs).sameRoots
  exact ⟨he.eq, rfl⟩

lemma wp_reopenBatch_roots : KeepsReady x ag (closeAndOpenNewWIPBatch cfg) := by
  intro f h
  refine (wp_actRoots (Q := fun fb p => fb = false ∧ p.Ready ag) (stable_ready ag) h fun f fb f' hP
    hi hf ha => ?_).seq fun fb f hf => ?_
  · cases hf
    have hn := ha.1 (Nat.succ_ne_self _)
    exact ⟨rfl, ⟨hi, .refl _, ⟨rfl⟩⟩, by rw [hn]; rfl, hP⟩
  obtain ⟨rfl, hr⟩ := hf
  have hs : LeavesRoots (closeForNextBatch cfg false) :=
    (stays_lookBatch _).leavesRoots.bind fun _ => trivial
  refine (wp_keepsRoots (stable_ready ag) hs hr).seq fun sr f hr => ?_
  refine (wp_closeWIPBatch_roots hr).seq fun number f hf => ?_
  obtain ⟨w, hc⟩ := hf
  refine (wp_when (Q := fun _ f => (f.rootPart x).Closed ag w number)
    (fun _ => wp_haltOnBatch_roots) fun _ => hc).seq fun _ f hc => ?_
  refine (wp_modifyRoots (Q := Ready ag) (stable_closed ag w number)
    hc fun f hP hi _ => ?_).seq fun _ f hr => ?_
  · have ho := hP.openWip hi ⟨number + 1, 0, sr⟩ rfl rfl
    simp only [openWIPBatch, rootPart, map_append, length_map] at ho ⊢
    exact ⟨trivial, ho⟩
  · exact wp_keepsRoots (stable_ready ag) leavesRoots_carryL2Block hr

lemma wp_placeNewL2Block_roots {resp : ProcessBatchResponse} :
    KeepsReady x ag (placeNewL2Block cfg resp) := by
  intro f h
  refine (wp_keepsRoots (stable_ready ag)
    (leavesRoots_takeNewL2Block resp) h).seq fun fits f hf => ?_
  refine (wp_when (fun _ => wp_reopenBatch_roots hf) fun _ => hf).seq fun _ f hf => ?_
  refine wp_keepsRoots (stable_ready ag) ?_ hf
  refine within_action (fun _ _ _ => trivial) fun f a f' hf => ?_
  obtain ⟨blk, -, -, rfl⟩ := bind_pair_inj hf
  exact ⟨fun _ => rfl, rfl⟩

variable {args : NewL2BlockArgs}

lemma wp_openL2Block_roots : KeepsReady x ag (openNewWIPL2Block cfg args) := by
  intro f h
  refine wp_ask fun inp => ?_
  refine (wp_keepsRoots (stable_ready ag) ?_ h).seq fun _ f hf => ?_
  · exact leavesRoots_modify (fun _ _ => rfl) fun _ => rfl
  refine (wp_keepsRoots (stable_ready ag) (stays_lookBatch _).leavesRoots hf).seq fun _ f hf => ?_
  refine wp_ask fun ans => ?_
  rcases ans with _ | resp
  · exact wp_haltRoots
  dsimp only
  split_ifs
  · exact wp_haltRoots
  · exact wp_placeNewL2Block_roots hf

lemma wp_runOpenBlock_roots (h : (f.rootPart x).Ready ag) : EndsReadyRoots x ag (.run args) f :=
  wp_run ag (fun _ hr => ⟨rfl, stable_ready ag _ _ h hr⟩) fun _ hf => hf

lemma wp_initL2Block_roots : KeepsReady x ag initWIPL2Block := by
  intro f h
  refine wp_ask fun ra => ?_
  cases ra with
  | none => trivial
  | some t => exact wp_runOpenBlock_roots h

lemma wp_finalizeL2Block_roots : KeepsReady x false finalizeWIPL2Block := by
  intro f h
  refine (wp_keepsRoots (stable_ready false)
    (stays_deref other_nilPointer _).leavesRoots h).seq fun blk f hf => ?_
  exact (wp_closeL2Block_roots hf).seq fun _ f hf => wp_runOpenBlock_roots hf

lemma wp_finalizeBatch_roots : KeepsReady x false (finalizeWIPBatch cfg) := by
  intro f h
  refine (wp_keepsRoots (stable_ready false)
    (stays_deref other_nilPointer _).leavesRoots h).seq fun blk f hf => ?_
  refine (wp_when (fun _ => wp_closeL2Block_roots hf) fun _ => hf).seq fun _ f hf => ?_
  refine (wp_reopenBatch_roots hf).seq fun _ f hf => ?_
  refine (wp_keepsRoots (stable_ready false) (stays_lookField _).leavesRoots hf).seq
    fun closed f hf => ?_
  exact wp_when (fun _ => wp_runOpenBlock_roots hf) fun _ => hf

lemma stable_row (row : UInt64 × Hash) :
    Stable fun p => (p.closing = none ∧ p.Halted) ∧ p.rows.head? = some row := by
  rintro p p' ⟨⟨hc, hh⟩, hw⟩ hr
  rw [hr.idle hh.idle]
  exact ⟨⟨hc, hh⟩, hw⟩

lemma initWip_mainStep {p : RootPart} (hh : p.Halted) {new : BatchInfo}
    {loaded : Bool} (hi : (p.initWip new loaded).Inv) : p.MainStep (p.initWip new loaded) := by
  refine ⟨hi, ⟨rfl, rfl, fun _ => rfl, fun hb => ?_, fun _ => rfl, fun _ => rfl⟩, ⟨rfl⟩⟩
  exact absurd (hh.idle.process.2.symm.trans hb) nofun

lemma setWIPBatch_info {psb wsb : StateBatch} {b : HeapBatch} (h : setWIPBatch cfg psb wsb =
    .ok b) : b.batchNumber = wsb.batchNumber ∧ b.finalStateRoot = wsb.stateRoot := by
  rw [setWIPBatch] at h
  split_ifs at h
  cases h
  exact ⟨rfl, rfl⟩

lemma wp_initBatch_roots (h : (f.rootPart x).closing = none ∧ (f.rootPart x).Halted) :
    EndsReadyRoots x true (initWIPBatch cfg) f := by
  refine (wp_lookRoots (P := fun p => p.closing = none ∧ p.Halted)
    (fun _ _ => stable_halted _ _) h).seq fun row f hf => ?_
  obtain ⟨hh, hl⟩ := hf
  have hr : (f.rootPart x).rows.head? = some (row.batchNumber, row.stateRoot) := by
    rw [rootPart, head?_map, deref_ok_iff.mp hl]
    rfl
  split_ifs
  · refine wp_actRoots (Q := fun _ => Ready true) (stable_row _) ⟨hh, hr⟩
      fun f a f' hP hv hf _ => ?_
    obtain ⟨prev, -, hf⟩ := ok_of_bind hf
    obtain ⟨wip, he, -, rfl⟩ := bind_pair_inj hf
    obtain ⟨hn, ht⟩ := setWIPBatch_info he
    have hi := hP.1.2.initWip wip.info true hv hP.2 ht (fun _ => hn)
      fun h => by cases h
    have hs := initWip_mainStep hP.1.2 hi.2
    simp only [RootPart.initWip, rootPart, map_append, length_map] at hi hs ⊢
    exact ⟨trivial, hs, hP.1.1, fun _ => hi.1⟩
  · exact wp_haltRoots
  refine wp_modifyRoots (Q := Ready true) (stable_row _) ⟨hh, hr⟩ fun f hP hv _ => ?_
  have hi := hP.1.2.initWip ⟨row.batchNumber + 1, 0, row.stateRoot⟩ false hv hP.2 rfl
    (fun h => by cases h) fun _ => rfl
  have hs := initWip_mainStep hP.1.2 hi.2
  simp only [RootPart.initWip, openWIPBatch, rootPart, map_append, length_map] at hi hs ⊢
  exact ⟨trivial, hs, hP.1.1, fun _ => hi.1⟩

lemma leavesRoots_restoreTxs : LeavesRoots (restoreTxsPendingToStore cfg) := by
  refine (within_ask _).bind fun visits => ?_
  refine (within_ask _).bind fun state => ?_
  refine Within.mono (within_workerWhen fun _ _ _ => ?_) (fun _ _ h => h) fun _ _ => trivial
  exact ⟨fun _ => rfl, rfl⟩

lemma wp_restarted (h : (f.rootPart x).Ready true) : EndsReadyRoots x false
    (.modify fun f => { f with
    l2BlockReorg := false
    trace := f.trace ++ [.reorged f.reorged f.worker.offeredTxs] }) f := by
  refine wp_modify fun f' hl hi _ => ?_
  have hr := stable_ready true _ _ h hl
  have hs := hr.restarting rfl
  have hp : Finalizer.rootPart { f' with
      l2BlockReorg := false
      trace := f'.trace ++ [.reorged f'.reorged f'.worker.offeredTxs] } x =
        { f'.rootPart x with
          l2BlockReorg := false
          roots := { (f'.rootPart x).roots with
            root := (f'.rootPart x).roots.stored, last := none } } := by
    simp only [rootPart, Roots.afterAll_concat]
    rfl
  refine ⟨⟨Roots.chained_concat.mpr ⟨hi.1, trivial⟩, ?_⟩, fun j hj => ?_, ?_⟩
  · rw [hp]
    exact hs.restarted hi.2
  · have hd := hs.idle.process.2
    cases j with
    | main => exact absurd rfl hj
    | process =>
      have hb : ∀ {P : Prop}, f'.processBusy = true → P :=
        fun hb => absurd (hd.symm.trans hb) nofun
      exact ⟨rfl, rfl, hb, hb, hb, hb⟩
    | store => exact ⟨rfl⟩
    | _ => trivial
  · exact ⟨hr.closing, nofun⟩

lemma wp_restartBatch_roots (h : (f.rootPart x).closing = none ∧ (f.rootPart x).Halted) :
    EndsReadyRoots x false (restartBatch cfg) f := by
  refine (wp_keepsRoots stable_halted leavesRoots_restoreTxs h).seq fun _ f hf => ?_
  refine (wp_initBatch_roots hf).seq fun _ f hf => ?_
  exact (wp_initL2Block_roots hf).seq fun _ f hf => wp_restarted hf

structure Reorging (p : RootPart) : Prop where
  closing : p.closing = none
  reorg : p.l2BlockReorg = true

lemma stable_reorging : Stable Reorging := by
  intro p p' hp hr
  refine ⟨hr.closing.trans hp.closing, ?_⟩
  cases hrr : p'.l2BlockReorg with
  | true => rfl
  | false => exact absurd ((hr.reorg hrr).1.symm.trans hp.reorg) nofun

lemma processIdle_iff (x : Roots) : f.processIdle = true ↔ (f.rootPart x).ProcessIdle := by
  simp [processIdle, RootPart.ProcessIdle, rootPart]

lemma storeIdle_iff (x : Roots) : f.storeIdle = true ↔
    (f.rootPart x).toStore = [] ∧ (f.rootPart x).storing = false := by
  simp [storeIdle, rootPart]

lemma wp_waitL2Blocks_roots (hs : Stable P) (h : P (f.rootPart x)) : (rootsOutline x).Wp .main
    (fun _ f => P (f.rootPart x) ∧ (f.rootPart x).Idle) waitPendingL2Blocks f := by
  refine (wp_await (Q := fun _ f => P (f.rootPart x) ∧ (f.rootPart x).ProcessIdle)
    fun f' hr _ hd => ?_).seq fun _ f hf => ?_
  · exact ⟨hs _ _ h hr, (processIdle_iff x).mp hd⟩
  refine wp_await fun f' hr _ hd => ⟨hs _ _ hf.1 hr, ?_⟩
  obtain ⟨ht, hg⟩ := (storeIdle_iff x).mp hd
  exact ⟨hr.processIdle hf.2, ht, hg⟩

lemma wp_l2Reorg_roots (h : Reorging (f.rootPart x)) :
    EndsReadyRoots x false (processL2BlockReorg cfg) f := by
  refine (wp_waitL2Blocks_roots stable_reorging h).seq fun _ f hf => ?_
  have hs : Stable fun p => Reorging p ∧ p.Idle := by
    intro p p' hp hr
    rw [hr.idle hp.2]
    exact hp
  refine (wp_unclosed (unclosed_closePrev cfg) hs (fun p hp => ?_) hf).seq fun closed f hf => ?_
  · exact ⟨⟨hp.1.closing, hp.1.reorg⟩, hp.2.process, hp.2.toStore, hp.2.storing⟩
  refine wp_when (fun _ => wp_restartBatch_roots ⟨hf.1.closing, hf.2, fun hrr => ?_⟩)
    fun _ => ⟨hf.1.closing, nofun⟩
  exact absurd (hrr.symm.trans hf.1.reorg) nofun

lemma wp_finalizeBatches_roots : KeepsReady x false (finalizeBatches cfg) := by
  intro f h
  have hs := stable_ready false
  refine mainKeeps_of_unfilled (J := fun f => Reorging (f.rootPart x)) (fun f h => ?_) (fun _ =>
    wp_l2Reorg_roots) (fun _ h => wp_finalizeL2Block_roots h) (fun hc _ h => wp_keepsRoots hs
    (hc.mono (fun _ _ => SameUnfilled.sameRoots) fun _ _ => trivial) h) (fun _ h =>
    wp_finalizeBatch_roots h) f h
  refine (wp_lookRoots (fun _ _ => hs _ _) h).mono fun reorged f hf => ⟨hf.1, fun hr => ?_⟩
  exact ⟨hf.1.closing, (Except.ok.inj hf.2).trans hr⟩

lemma wp_start_roots (h : (f.rootPart x).closing = none ∧ (f.rootPart x).Halted) :
    EndsReadyRoots x false (Finalizer.start cfg) f := by
  refine (wp_initBatch_roots h).seq fun _ f hf => ?_
  refine (wp_initL2Block_roots hf).seq fun _ f hf => ?_
  refine wp_keepsRoots (stable_ready false) ?_ ⟨hf.closing, nofun⟩
  exact leavesRoots_modify (fun _ _ => rfl) fun _ => rfl
end

/-! ## Processing L2 blocks -/

section
variable {x : Roots} {f : Finalizer} {blk : PendingL2Block} {r : BatchRef}

structure ProcessStep (p p' : RootPart) : Prop where
  inv : p'.Inv
  main : p.MainRely p'
  store : p.StoreRely p'

variable {P : RootPart → Prop}

lemma wp_actProcess {α : Type} {ready : Finalizer → Bool} {g : Finalizer →
    Except Fault (α × Finalizer)} {Q : α → RootPart → Prop} (hb : RootPart.ProcessStable P)
    (h : P (f.rootPart x)) (hg : ∀ f a f', P (f.rootPart x) → (rootsOutline x).inv f → ready f =
    true → g f = .ok (a, f') → x.Chained f'.trace ∧ ProcessStep (f.rootPart x) (f'.rootPart x) ∧
    Q a (f'.rootPart x)) : (rootsOutline x).Wp .process (fun a f => Q a (f.rootPart x))
    (.action ready g .ret) f := by
  refine wp_action (fun _ _ _ _ _ _ => trivial) fun f' a f'' hr hi hd hf _ => ?_
  obtain ⟨hc, hs, hQ⟩ := hg f' a f'' (hb _ _ h hr) hi hd hf
  refine ⟨⟨hc, hs.inv⟩, fun j hj => ?_, hQ⟩
  cases j with
  | main => exact hs.main
  | process => exact absurd rfl hj
  | store => exact hs.store
  | _ => trivial

lemma wp_modifyProcess {g : Finalizer → Finalizer} {Q : RootPart → Prop}
    (hb : RootPart.ProcessStable P) (h : P (f.rootPart x))
    (hg : ∀ f, P (f.rootPart x) → (f.rootPart x).Inv → (g f).trace = f.trace ∧
    ProcessStep (f.rootPart x) ((g f).rootPart x) ∧ Q ((g f).rootPart x)) :
    (rootsOutline x).Wp .process (fun _ f => Q (f.rootPart x)) (.modify g) f := by
  refine wp_actProcess (Q := fun _ => Q) hb h fun f a f' hP hi _ hf => ?_
  cases hf
  obtain ⟨ht, hs, hQ⟩ := hg f hP hi.2
  exact ⟨ht ▸ hi.1, hs, hQ⟩

lemma wp_discardL2Block (h : (f.rootPart x).Processing blk ∧ (f.rootPart x).l2BlockReorg = true) :
    (rootsOutline x).Wp .process (fun _ f => (f.rootPart x).Done) (discardL2Block blk) f := by
  refine wp_modifyProcess (Q := RootPart.Done) (processStable_reorg blk) h
    fun f hP hi => ⟨rfl, ⟨hi.discard hP.2, ?_, ⟨rfl⟩⟩, hP.1.busy, rfl⟩
  exact mainRely_of_busy hP.1.busy rfl rfl rfl fun hr =>
    absurd (hr.symm.trans hP.2) nofun

lemma processStep_setPip {p : RootPart} {b : BatchInfo} (b' : BatchInfo) (roots : Roots) (hi :
    p.Inv) (hp : p.Processing blk) (hl : blk.batch = some r) (hb : p.batches[r]? = some b)
    (hn : b'.number = b.number) (hc : b'.count = b.count) (ht : p.l2BlockReorg = false → b'.root =
    roots.root) (hs : roots.stored = p.roots.stored) : ProcessStep p (p.setPip r b' roots) := by
  refine ⟨hi.setPip hp hl hb hn hc ht hs, ?_, ⟨rfl⟩⟩
  refine mainRely_of_busy hp.busy rfl rfl ?_ fun hr => ⟨hr, ?_⟩
  · exact map_set_of_eq hb (Prod.ext hn hc)
  · exact hp.getLast?_setPip hl b' roots

lemma propagate_step {b : HeapBatch} (hi : (rootsOutline x).inv f) (hl : (f.rootPart x).Live blk)
    (hbl : blk.batch = some r) (hb : f.batches[r]? = some b) (h : f.propagate r b = .ok f') :
    x.Chained f'.trace ∧ ProcessStep (f.rootPart x) (f'.rootPart x) ∧
    (f'.rootPart x).Processing blk ∧ (f'.rootPart x).l2BlockReorg = false ∧
    (f'.rootPart x).pipBatch = some r := by
  have hr : (f.rootPart x).batches[r]? = some b.info := rootPart_batches hb
  rcases propagate_ok h with ⟨hp, rfl⟩ | ⟨s, pip, hp, ha, hf⟩
  · have hs := processStep_setPip b.info _ hi.2 hl.toProcessing hbl hr rfl rfl
      (fun hrr => hi.2.root_of_first hrr hl.toProcessing hbl hp hr) rfl
    rw [RootPart.setPip, set_of_getElem? hr] at hs
    exact ⟨hi.1, hs, ⟨hl.busy, hl.processing⟩, hl.reorg, rfl⟩
  have ht := hi.2.root_eq hl.reorg hp (rootPart_batches ha)
  rcases hf with ⟨hn, rfl⟩ | ⟨-, rfl⟩
  · obtain rfl := hi.2.eq_pip hl.reorg hl.toProcessing hbl hp (rootPart_batches ha) hr hn
    exact ⟨hi.1, ⟨hi.2, .refl _, ⟨rfl⟩⟩, hl.toProcessing, hl.reorg, hp⟩
  have hs := processStep_setPip ⟨b.batchNumber, b.countOfL2Blocks, pip.finalStateRoot⟩ _ hi.2
    hl.toProcessing hbl hr rfl rfl (fun _ => ht) rfl
  refine ⟨Roots.chained_concat.mpr ⟨hi.1, ht, fun batch hbt => ?_⟩, ?_,
    ⟨hl.busy, hl.processing⟩, hl.reorg, rfl⟩
  · exact Option.mem_unique (hl.last batch hbt) hp
  · simp only [rootPart, setBatch, map_set, Roots.afterAll_concat] at hs ⊢
    exact hs

lemma rootPart_executed (x : Roots) (hp : f.pipBatch = some r) (b : HeapBatch) (ev : Event) :
    Finalizer.rootPart { f.setBatch r b with trace := f.trace ++ [ev] } x =
    (f.rootPart x).setPip r b.info ((f.rootPart x).roots.after ev) := by
  simp only [rootPart, setBatch, map_set, Roots.afterAll_concat, RootPart.setPip, hp]

lemma takeResp_step {root : Hash} {ans : Option ProcessBatchResponse} {res : Option PendingL2Block}
    (hi : (rootsOutline x).inv f) (hs : (f.rootPart x).Starts blk r root) (hl : blk.batch = some r)
    (h : f.takeResponse r blk root ans = .ok (res, f')) : x.Chained f'.trace ∧
    ProcessStep (f.rootPart x) (f'.rootPart x) ∧ (f'.rootPart x).Processing blk ∧ (res ≠ none →
    (f'.rootPart x).Live blk ∧ (f'.rootPart x).pipBatch = some r) := by
  obtain ⟨b, b', hb, hsm, -, hf⟩ := takeResp_ok h
  have ha : (f.rootPart x).batches[r]? = some b.info := rootPart_batches hb
  have hm := HeapBatch.mainPart_eq hsm
  have hnm : b'.info.number = b.info.number := congrArg Prod.fst hm
  have hc : b'.info.count = b.info.count := congrArg (fun p => p.2.1) hm
  have hr := hi.2.root_eq hs.reorg hs.pipBatch ha
  have hp : ∀ b roots, ((f.rootPart x).setPip r b roots).Processing blk :=
    fun _ _ => ⟨hs.busy, hs.processing⟩
  rcases hf with ⟨rfl, hn, rfl⟩ | ⟨resp, _, rfl, hn, rfl⟩
  · refine ⟨Roots.chained_concat.mpr ⟨hi.1, hs.root_eq⟩, ?_⟩
    rw [rootPart_executed x hs.pipBatch]
    refine ⟨?_, hp _ _, fun he => absurd rfl he⟩
    exact processStep_setPip b'.info _ hi.2 hs.toProcessing hl ha hnm hc (fun _ => hn.trans hr) rfl
  refine ⟨Roots.chained_concat.mpr ⟨hi.1, hs.root_eq⟩, ?_⟩
  rw [rootPart_executed x hs.pipBatch]
  refine ⟨?_, hp _ _, fun _ => ⟨⟨hp _ _, hs.reorg, ?_⟩, rfl⟩⟩
  · exact processStep_setPip b'.info _ hi.2 hs.toProcessing hl ha hnm hc (fun _ => hn) rfl
  · exact fun batch ht => ht

lemma wp_addToStore (hb : blk.batch = some r)
    (h : (f.rootPart x).Live blk ∧ (f.rootPart x).pipBatch = some r) (blk' : PendingL2Block) :
    (rootsOutline x).Wp .process (fun _ f => (f.rootPart x).Done) (addPendingL2BlockToStore blk')
    f := by
  refine wp_modifyProcess (Q := RootPart.Done) (processStable_pip blk r) h
    fun f hP hi => ⟨rfl, ⟨?_, ?_, ⟨rfl⟩⟩, hP.1.busy, rfl⟩
  · exact hi.processed hP.1.toProcessing hb hP.2 hP.1.last _
  · refine mainRely_of_busy hP.1.busy rfl rfl rfl fun hr => ⟨hr, ?_⟩
    exact hP.1.getLast?_processed hb hP.2 _

lemma wp_processL2Block (h : (f.rootPart x).Live blk) :
    (rootsOutline x).Wp .process (fun processed f => if processed then (f.rootPart x).Done
    else (f.rootPart x).Processing blk) (processL2Block blk) f := by
  refine (wp_lookRoots (fun _ _ => processStable_live blk _ _) h).seq fun r f hf => ?_
  obtain ⟨hv, hk⟩ := hf
  have hl := deref_ok_iff.mp hk
  refine (wp_actProcess (Q := fun root => RootPart.Starts blk r root)
    (processStable_live blk) hv fun f root f' hP hi _ hf => ?_).seq fun root f hss => ?_
  · obtain ⟨b, ha, hf⟩ := ok_of_bind hf
    obtain ⟨g, hg, hf⟩ := ok_of_bind hf
    obtain ⟨pip, hpp, rfl, rfl⟩ := bind_pair_inj hf
    obtain ⟨hr, hb⟩ := batchAt_ok_iff.mp ha
    cases hr
    obtain ⟨hc, hs, hp, hrr, hpa⟩ := propagate_step hi hP hl hb hg
    refine ⟨hc, hs, hp, hrr, hpa, ?_⟩
    obtain ⟨ha, ht⟩ := batchAt_ok_iff.mp hpp
    exact hs.inv.root_eq hrr ha (rootPart_batches ht)
  refine wp_ask fun ans => ?_
  refine (wp_actProcess (Q := fun result p => p.Processing blk ∧ (result ≠ none → p.Live blk ∧
    p.pipBatch = some r)) (processStable_starts blk r root) hss fun f result f' hP hi _ hf =>
    ?_).seq fun result f hf => ?_
  · exact takeResp_step hi hP hl hf
  rcases result with _ | blk'
  · exact hf.1
  refine (wp_leavesRoots (P := fun p => p.Live blk ∧ p.pipBatch = some r) (stays_await
    _).leavesRoots (fun _ _ => processStable_pip blk r _ _) (hf.2 nofun)).seq fun _ f hf => ?_
  exact (wp_addToStore hl hf blk').seq fun _ f hf => hf

lemma wp_detectReorg (h : (f.rootPart x).Processing blk) : (rootsOutline x).Wp .process
    (fun _ f => (f.rootPart x).Done) (detectL2BlockReorg blk) f := by
  refine (wp_actProcess (Q := fun wr p => wr = false → p.Processing blk ∧ p.l2BlockReorg = true)
    (RootPart.processStable_processing blk) h fun f wr f' hP hi _ hf => ?_).seq fun wr f hf => ?_
  · cases hf
    refine ⟨hi.1, ⟨hi.2.detect _, ?_, ⟨rfl⟩⟩, fun hl => ⟨⟨hP.busy, hP.processing⟩, ?_⟩⟩
    · refine mainRely_of_busy hP.busy rfl rfl rfl fun hr => ⟨?_, rfl⟩
      exact (Bool.or_eq_false_iff.mp hr).1
    show (f.l2BlockReorg || !f.lastL2BlockWasReorg) = true
    rw [hl]
    exact Bool.or_true _
  cases wr with
  | true => exact wp_haltRoots.seq fun _ _ h => h
  | false => exact wp_discardL2Block (hf rfl)

lemma wp_handlePendingL2Block (h : (f.rootPart x).Taken blk) : (rootsOutline x).Wp .process
    (fun _ f => (f.rootPart x).Done) (handlePendingL2Block blk) f := by
  refine (wp_lookRoots (fun _ _ => processStable_taken blk _ _) h).seq fun reorged f hf => ?_
  obtain ⟨ht, hl⟩ := hf
  cases hl
  cases hr : f.l2BlockReorg with
  | true => exact wp_discardL2Block ⟨ht.toProcessing, hr⟩
  | false =>
    refine (wp_processL2Block (ht.live hr)).seq fun processed f hf => ?_
    cases processed with
    | true =>
      refine wp_leavesRoots ?_ (fun _ _ => processStable_done _ _) hf
      exact leavesRoots_modify (fun _ _ => rfl) fun _ => rfl
    | false => exact wp_detectReorg hf

lemma wp_takeToProcess (h : (f.rootPart x).processBusy = false) :
    (rootsOutline x).Wp .process (fun blk f => (f.rootPart x).Taken blk)
    (.action (fun f => !f.pendingL2BlocksToProcess.isEmpty)
    (fun f => do
          let blk ← deref .nilPointer f.pendingL2BlocksToProcess.head?
          .ok (blk, { f with
            pendingL2BlocksToProcess := f.pendingL2BlocksToProcess.tail
            processing := some blk
            processBusy := true }))
        .ret) f := by
  have hs : RootPart.ProcessStable fun p => p.processBusy = false :=
    fun _ _ hp hl => hl.processBusy.trans hp
  refine wp_actProcess (Q := RootPart.Taken) hs h fun f blk f' hP hi _ hf => ?_
  obtain ⟨first, hh, rfl, rfl⟩ := bind_pair_inj hf
  have hc : (f.rootPart x).toProcess = first :: f.pendingL2BlocksToProcess.tail :=
    eq_cons_of_mem_head? (deref_ok_iff.mp hh)
  have ht := hi.2.take hP hc
  refine ⟨hi.1, ⟨ht, ?_, ⟨rfl⟩⟩, ⟨rfl, rfl⟩, fun hr => ⟨⟨rfl, rfl⟩, hr, ?_⟩⟩
  · refine ⟨rfl, rfl, rfl, fun hr => ⟨hr, ?_⟩, fun hd => ?_, fun hd => ?_⟩
    · exact congrArg getLast? (hi.2.refs_take hP hc)
    · exact absurd (hc.symm.trans hd.1) nofun
    · exact absurd (hc.symm.trans hd.process.1) nofun
  · exact hi.2.last_eq hr (hi.2.busy hP)

lemma wp_processL2Blocks (h : f.processBusy = false) : (rootsOutline x).Wp .process
    (fun _ f => f.processBusy = false) processPendingL2Blocks f := by
  refine (wp_takeToProcess h).seq fun blk f hf => ?_
  refine (wp_handlePendingL2Block hf).seq fun _ f hf => ?_
  refine wp_modifyProcess (Q := fun p => p.processBusy = false) processStable_done hf
    fun f hP hi => ⟨rfl, ⟨hi.free hP.processing, ?_, ⟨rfl⟩⟩, rfl⟩
  exact mainRely_of_busy hP.busy rfl rfl rfl fun hr => ⟨hr, rfl⟩
end

/-! ## Storing L2 blocks -/

section
variable {x : Roots} {cfg : FinalizerCfg} {f : Finalizer} {blk : PendingL2Block}

structure StoreStep (p p' : RootPart) : Prop where
  inv : p'.Inv
  main : p.MainRely p'
  process : p.ProcessRely p'

lemma wp_actStore {α : Type} {ready : Finalizer → Bool} {g : Finalizer →
    Except Fault (α × Finalizer)} {P : RootPart → Prop} {Q : α → RootPart → Prop}
    (hb : ∀ p p' : RootPart, P p → p.StoreRely p' → P p') (h : P (f.rootPart x)) (hg : ∀ f a f',
    P (f.rootPart x) → (rootsOutline x).inv f → ready f = true → g f = .ok (a, f') →
    x.Chained f'.trace ∧ StoreStep (f.rootPart x) (f'.rootPart x) ∧ Q a (f'.rootPart x)) :
    (rootsOutline x).Wp .store (fun a f => Q a (f.rootPart x)) (.action ready g .ret) f := by
  refine wp_action (fun _ _ _ _ _ _ => trivial) fun f' a f'' hr hi hd hf _ => ?_
  obtain ⟨hc, hs, hQ⟩ := hg f' a f'' (hb _ _ h hr) hi hd hf
  refine ⟨⟨hc, hs.inv⟩, fun j hj => ?_, hQ⟩
  cases j with
  | main => exact hs.main
  | process => exact hs.process
  | store => exact absurd rfl hj
  | _ => trivial

variable {p : RootPart}

lemma storeStep_setStoring (hn : p.Inv) (hi : ¬p.Idle) (toStore : List PendingL2Block)
    (sto : Bool) :
    StoreStep p { p with toStore := toStore, storing := sto } :=
  ⟨hn.setStoring toStore sto, mainRely_of_storing hi rfl rfl rfl rfl rfl fun h => h,
    .of_eq rfl rfl rfl rfl rfl⟩

lemma not_idle_of_storing (h : p.storing = true) : ¬p.Idle :=
  fun hi => absurd (hi.storing.symm.trans h) nofun

lemma startsBatch_ok {b : HeapBatch} {sta : Bool} (h : f.startsBatch b = .ok sta) :
    sta = true ∨ ∃ s sip, sta = false ∧ f.sipBatch = some s ∧
    f.batches[s]? = some sip ∧ sip.batchNumber = b.batchNumber := by
  rw [startsBatch] at h
  rcases hp : f.sipBatch with _ | s
  · rw [hp] at h
    exact .inl (Except.ok.inj h).symm
  rw [hp] at h
  obtain ⟨sip, ha, ht⟩ := ok_of_bind h
  obtain ⟨hs, hb⟩ := batchAt_ok_iff.mp ha
  cases hs
  cases ht
  by_cases hn : sip.2.batchNumber = b.batchNumber
  · exact .inr ⟨sip.1, sip.2, decide_eq_false (not_not.mpr hn), rfl, hb, hn⟩
  · exact .inl (decide_eq_true hn)

lemma head?_updateRow {state : List StateBatch} {number : UInt64} {root : Hash} {g : StateBatch →
    StateBatch} {row : UInt64 × Hash} (hr : ((updateRow state number g).map fun b => (b.batchNumber,
    b.stateRoot)).head? = some row) (hn : ∀ b, (g b).batchNumber = b.batchNumber) (ht : ∀ b,
    (g b).stateRoot = root) (h : ∀ b, state.head? = some b → b.batchNumber = number) : row =
    (number, root) := by
  rcases state with _ | ⟨b, state⟩
  · cases hr
  have hb := h b rfl
  simp only [updateRow, map_cons, head?_cons, hb, if_true, Option.some.injEq] at hr
  rw [← hr, hn, ht, hb]

lemma storeStep_store (hn : p.Inv) (hi : ¬p.Idle) {s : BatchRef} {b : BatchInfo}
    (hb : p.batches[s]? = some b) {rows : List (UInt64 × Hash)} {root : Hash}
    (hr : ∀ row, rows.head? = some row → row = (b.number, root)) :
    StoreStep p { p with
    rows := rows
    sipBatch := some s
    roots := { p.roots with stored := root } } :=
  ⟨hn.store hb hr, mainRely_of_storing hi rfl rfl rfl rfl rfl fun h => h,
    ⟨rfl, rfl, fun _ => rfl, fun _ => rfl, fun _ => rfl, fun _ => rfl⟩⟩

lemma rootPart_stored (x : Roots) (hs : f.storing.isSome = true)
    (state : List StateBatch) (sb : Option BatchRef) (sto : Storing) (root : Hash)
    (txs : List Hash) :
    Finalizer.rootPart { f with
    state := state
    sipBatch := sb
    storing := some sto
    trace := f.trace ++ [.stored root txs] } x =
    { f.rootPart x with
    rows := state.map fun row => (row.batchNumber, row.stateRoot)
    sipBatch := sb
    roots := { (f.rootPart x).roots with stored := root } } := by
  simp only [rootPart, hs, Roots.afterAll_concat]
  rfl

lemma commitL2Block_step {r : BatchRef} {resp : ProcessBatchResponse} (hi : (rootsOutline x).inv f)
    (hg : f.storing.isSome = true) (h : f.commitL2Block cfg r blk resp = .ok f') : x.Chained
    f'.trace ∧ StoreStep (f.rootPart x) (f'.rootPart x) ∧ f'.storing.isSome = true := by
  obtain ⟨b, ha, h⟩ := ok_of_bind h
  obtain ⟨sta, hsr, h⟩ := ok_of_bind h
  cases h
  obtain ⟨hr, hb⟩ := batchAt_ok_iff.mp ha
  cases hr
  have hd : ¬(f.rootPart x).Idle := not_idle_of_storing hg
  refine ⟨Roots.chained_concat.mpr ⟨hi.1, trivial⟩, ?_, rfl⟩
  rw [rootPart_stored x hg]
  rcases startsBatch_ok hsr with rfl | ⟨s, sip, rfl, hs, ht, hn⟩
  · refine storeStep_store hi.2 hd (rootPart_batches hb) fun row ho => ?_
    refine head?_updateRow ho (fun _ => rfl) (fun _ => rfl) fun row' hw => ?_
    cases hw
    rfl
  rw [if_neg nofun, hs]
  refine storeStep_store hi.2 hd (rootPart_batches ht) fun row ho => ?_
  have hw := head?_updateRow ho (fun _ => rfl) (fun _ => rfl) fun row' hw => ?_
  · rw [hw, ← hn]
    rfl
  obtain ⟨c, hc, hh⟩ := hi.2.sip_number s hs
  obtain rfl := Option.mem_unique (rootPart_batches ht) hc
  rw [← hn]
  have hst : f.state.head? = some row' := hw
  refine hh (row'.batchNumber, row'.stateRoot) ?_
  rw [rootPart, head?_map, hst]
  rfl

lemma stable_storing (p p' : RootPart) (h : p.storing = true) (hr : p.StoreRely p') :
    p'.storing = true :=
  hr.storing.trans h

lemma wp_keepsStoring {α : Type} {code : Run α} (hc : LeavesRoots code)
    (h : (f.rootPart x).storing = true) :
    (rootsOutline x).Wp .store (fun _ f => (f.rootPart x).storing = true) code f :=
  wp_leavesRoots (P := fun p => p.storing = true) hc (fun _ _ => stable_storing _ _) h

lemma leavesRoots_deletePendingTx (tx : BlockTx) : LeavesRoots (deleteStored tx) := by
  refine Within.mono (within_workerWhen fun f w _ => ?_) (fun _ _ h => h) fun _ _ => trivial
  refine ⟨fun x => ?_, rfl⟩
  simp only [rootPart, Option.isSome_map]

lemma wp_storeL2Block_roots (h : (f.rootPart x).storing = true) : (rootsOutline x).Wp .store
    (fun _ f => (f.rootPart x).storing = true) (storeL2Block cfg blk) f := by
  refine wp_storeL2Block (fun hc _ => wp_keepsStoring hc.leavesRoots) (fun hc _ => wp_keepsStoring
    hc.leavesRoots) (fun r resp f hf => ?_) (fun f hf => ?_) h
  · refine wp_actStore (Q := fun _ p => p.storing = true) stable_storing hf
      fun f a f' hP hi _ hf => ?_
    exact commitL2Block_step hi hP (commitL2Block_of_map hf)
  · exact wp_keepsStoring (within_forEach leavesRoots_deletePendingTx _) hf

lemma wp_storeL2Blocks_roots :
    (rootsOutline x).Wp .store (fun _ _ => True) (storePendingL2Blocks cfg) f := by
  refine (wp_actStore (P := fun _ => True) (Q := fun _ p => p.storing = true)
    (fun _ _ h _ => h) trivial fun f blk f' _ hi hr hf => ?_).seq fun blk f hf => ?_
  · obtain ⟨first, -, -, rfl⟩ := bind_pair_inj hf
    refine ⟨hi.1, storeStep_setStoring hi.2 (fun hd => ?_) _ true, rfl⟩
    have hn : f.pendingL2BlocksToStore = [] := hd.toStore
    rw [hn] at hr
    cases hr
  refine (wp_storeL2Block_roots hf).seq fun _ f hf => ?_
  refine wp_actStore (Q := fun _ _ => True) stable_storing hf fun f a f' hP hi _ hf => ?_
  cases hf
  exact ⟨hi.1, storeStep_setStoring hi.2 (not_idle_of_storing hP) _ false, trivial⟩
end

variable (cfg : FinalizerCfg)

lemma rootsOutline_valid (G : TxTracker → Prop) (x : Roots) : (rootsOutline x).Valid
    (openNewWIPL2Block cfg) (body cfg G) where
  loop_stable i f f' hloop hrely := by
    cases i with
    | main => exact hrely.closing.trans hloop
    | process => exact hrely.processBusy.trans hloop
    | _ => trivial
  proc i args ag f hpre := by
    obtain ⟨rfl, hr⟩ := hpre
    exact wp_openL2Block_roots hr
  body i f hloop := by
    rcases i with _ | _ | _ | _ | _
    · exact (wp_finalizeBatches_roots ⟨hloop, nofun⟩).mono fun _ f hf => hf.closing
    · exact wp_processL2Blocks hloop
    · exact wp_storeL2Blocks_roots
    · refine wp_leavesRoots (P := fun _ => True) (within_checkForced fun _ _ _ => ?_)
        (fun _ _ h _ => h) trivial
      exact ⟨fun _ => rfl, rfl⟩
    refine wp_leavesRoots (P := fun _ => True) (Within.mono (within_loadFromPool
      (fun _ _ => ?_) cfg G) (fun _ _ h => h) fun _ _ => trivial) (fun _ _ h _ => h) trivial
    exact ⟨fun _ => rfl, rfl⟩

variable (state : List StateBatch)

def startRoots : Roots :=
  let root := (state.head?.map StateBatch.stateRoot).getD zeroHash
  ⟨root, root, none⟩

lemma inv_startProcess : ((newFinalizer cfg state).rootPart (startRoots state)).Inv where
  stored_eq row hr := by
    cases state with
    | nil => cases hr
    | cons batch state =>
      cases hr
      rfl
  sip_number s hs := by cases hs
  busy _ := rfl
  linked _ := ⟨BatchChain.nil _ _, nofun⟩
  last_eq _ _ batch hb := by cases hb

lemma holds_startProcess_roots :
    (rootsOutline (startRoots state)).Holds (startProcess cfg state) where
  inv := ⟨trivial, inv_startProcess cfg state⟩
  wp i := by
    cases i with
    | main =>
      exact (wp_start_roots ⟨rfl, ⟨⟨rfl, rfl⟩, rfl, rfl⟩, fun _ => ⟨rfl, rfl⟩⟩).mono
        fun _ f hf => hf.closing
    | process => exact rfl
    | _ => trivial

lemma NoForcedBatches.forcedWithL2Block (h : NoForcedBatches f f') : ForcedWithL2Block f f' :=
  fun hc hf => absurd (h hc) hf

/-- Without forced batches, every L2 block is executed from the new root of the block before it, the
next batch takes over the root of the last block, and after a reorg the next block is executed from
the root of the last stored block. -/
theorem roots_chained_of_noForcedBatches {cfg : FinalizerCfg} {G : TxTracker → Prop}
    {state : List StateBatch} {c : Process Finalizer NewL2BlockArgs Fault Goroutine}
    (h : Reaches cfg G NoForcedBatches state c) : (startRoots state).Chained c.shared.trace := by
  have hr := h.strengthen (K := blocksOutline.inv) fun c hc =>
    (holds_of_forcedWithL2Block (hc.mono fun _ _ => NoForcedBatches.forcedWithL2Block)).inv
  have hh := (rootsOutline_valid cfg G (startRoots state)).sound (fun c hc => by
    rw [hc]
    exact holds_startProcess_roots cfg state) hr
  exact hh.inv.1

def newRoot : Hash := ⟨List.replicate 32 1, length_replicate⟩

open Evolves renaming action → acts, answer → hears

/-- The first L2 block is stored with a new root, the second fails, and after the reorg a block of
the next batch waits, which starts from that root. -/
lemma reaches_nextBatch : ∃ c c',
    Reaches plainCfg PlainTx NoForcedBatches plainBatches c ∧
    c.shared.trace = [.executed 0 zeroHash (some newRoot), .stored newRoot [],
      .executed 0 newRoot none, .reorged [] []] ∧
    c.shared.pendingL2BlocksToProcess.map PendingL2Block.batch = [some 1] ∧
    c.shared.pipBatch = some 1 ∧ c.shared.processing = none ∧ c.shared.wipBatch = some 1 ∧
    c.shared.batches.length = 2 ∧ c.shared.l2BlockReorg = false ∧
    Reaches plainCfg PlainTx NoForcedBatches plainBatches c' ∧
    c'.shared.trace = c.shared.trace ++ [.executed 1 newRoot (some zeroHash)] := by
  have hsr := (plainGoing_start NoForcedBatches).evolve .main rfl (by
    iterate 2 apply acts rfl rfl (absurd rfl)
    apply hears (some 0)
    apply Evolves.call
    apply hears ⟨0, 0, false⟩
    iterate 2 apply acts rfl rfl (absurd rfl)
    apply hears (some (plainResponse 0))
    iterate 3 apply acts rfl rfl (absurd rfl)
    exact .refl _ _)
  have hfs := hsr.evolveBody .main rfl (by
    apply acts rfl rfl (absurd rfl)
    apply hears true
    iterate 7 apply acts rfl rfl (absurd rfl)
    apply hears false
    apply acts rfl rfl (absurd rfl)
    apply Evolves.call
    apply hears ⟨0, 0, false⟩
    iterate 2 apply acts rfl rfl (absurd rfl)
    apply hears (some (plainResponse 0))
    iterate 2 apply acts rfl rfl (absurd rfl)
    apply hears 1
    apply hears [0, 0]
    iterate 4 apply acts rfl rfl (absurd rfl)
    apply hears false
    apply hears false
    apply acts rfl rfl (absurd rfl)
    exact .refl _ _)
  have hp := hfs.evolveBody .process rfl (by
    iterate 4 apply acts rfl rfl (absurd rfl)
    apply hears (some { plainResponse 0 with newStateRoot := newRoot })
    iterate 5 apply acts rfl rfl (absurd rfl)
    exact .refl _ _)
  have hst := hp.evolveBody .store rfl (by
    iterate 5 apply acts rfl rfl (absurd rfl)
    apply hears false
    apply acts rfl rfl (absurd rfl)
    apply hears false
    apply acts rfl rfl (absurd rfl)
    exact .refl _ _)
  have hsn := hst.evolveBody .main rfl (by
    apply acts rfl rfl (absurd rfl)
    apply hears true
    iterate 7 apply acts rfl rfl (absurd rfl)
    apply hears false
    apply acts rfl rfl (absurd rfl)
    apply Evolves.call
    apply hears ⟨0, 0, false⟩
    iterate 2 apply acts rfl rfl (absurd rfl)
    apply hears (some (plainResponse 0))
    iterate 2 apply acts rfl rfl (absurd rfl)
    apply hears 1
    apply hears [0, 0]
    iterate 4 apply acts rfl rfl (absurd rfl)
    apply hears false
    apply hears false
    apply acts rfl rfl (absurd rfl)
    exact .refl _ _)
  have hfl := hsn.evolveBody .process rfl (by
    iterate 4 apply acts rfl rfl (absurd rfl)
    apply hears none
    iterate 4 apply acts rfl rfl (absurd rfl)
    exact .refl _ _)
  have hr := hfl.evolveBody .main rfl (by
    iterate 4 apply acts rfl rfl (absurd rfl)
    apply hears ⟨fun addrs => addrs, .refl⟩
    apply hears fun _ => Worker.plainState
    iterate 3 apply acts rfl rfl (absurd rfl)
    apply hears (some 0)
    apply Evolves.call
    apply hears ⟨0, 0, false⟩
    iterate 2 apply acts rfl rfl (absurd rfl)
    apply hears (some (plainResponse 0))
    iterate 3 apply acts rfl rfl (absurd rfl)
    apply hears true
    iterate 6 apply acts rfl rfl (absurd rfl)
    exact .refl _ _)
  have ht := hr.evolveBody .process rfl (by
    iterate 4 apply acts rfl rfl (absurd rfl)
    apply hears (some (plainResponse 0))
    apply acts rfl rfl (absurd rfl)
    exact .refl _ _)
  exact ⟨_, _, hr.reaches, rfl, rfl, rfl, rfl, rfl, rfl, rfl, ht.reaches, rfl⟩

theorem roots_chained_of_noForcedBatches_reorg :
    ∃ c, Reaches plainCfg PlainTx NoForcedBatches plainBatches c ∧
    c.shared.trace = [.executed 0 zeroHash (some newRoot), .stored newRoot [],
    .executed 0 newRoot none, .reorged [] [], .executed 1 newRoot (some zeroHash)] ∧
    (startRoots plainBatches).Chained c.shared.trace := by
  obtain ⟨c, c', -, hc, -, -, -, -, -, -, h, hc'⟩ := reaches_nextBatch
  exact ⟨c', h, by rw [hc', hc]; rfl, roots_chained_of_noForcedBatches h⟩

end Finalizer

end EthdaNode.Sequencer
