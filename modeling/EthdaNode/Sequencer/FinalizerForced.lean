import EthdaNode.Sequencer.FinalizerRoots
import EthdaNode.Sequencer.ForcedRoots

/-!
# The state root after forced batches

The goroutines keep the invariant of `StartPart`. So the first L2 block of a batch after
forced batches starts from the root of the last forced batch only if the batch that was
processed before has that root too: `processL2Block` takes the root over from there.
-/

namespace EthdaNode.Sequencer

open Go Go.Code Go.Outline List StartPart

namespace Finalizer

variable (trace : List Event)

def startedBatches : List BatchRef :=
  trace.flatMap fun
    | .propagated _ next _ => [next]
    | .executed batch _ _ => [batch]
    | _ => []

def propagatedRoots : List (BatchRef × Hash) :=
  trace.flatMap fun
    | .propagated _ next root => [(next, root)]
    | _ => []

lemma started_concat (ev : Event) :
    startedBatches (trace ++ [ev]) = startedBatches trace ++ startedBatches [ev] :=
  flatMap_append

lemma propagated_concat (ev : Event) :
    propagatedRoots (trace ++ [ev]) = propagatedRoots trace ++ propagatedRoots [ev] :=
  flatMap_append

variable (f : Finalizer)

def startPart : StartPart where
  batches := f.batches.map HeapBatch.roots
  wipBatch := f.wipBatch
  wipL2Block := f.wipL2Block.map PendingL2Block.batch
  pipBatch := f.pipBatch
  toProcess := f.pendingL2BlocksToProcess.map PendingL2Block.batch
  processing := f.processing.map PendingL2Block.batch
  processBusy := f.processBusy
  toStore := f.pendingL2BlocksToStore.map PendingL2Block.batch
  storing := f.storing.map fun s => s.block.batch
  last := f.state.head?.map fun row => (row.batchNumber, row.stateRoot)
  started := startedBatches f.trace
  propagated := propagatedRoots f.trace

def startOutline : Outline Finalizer NewL2BlockArgs Fault Goroutine Unit where
  allowed _ _ := True
  inv f := f.startPart.Inv
  rely
    | .main, f, f' => f.startPart.MainRely f'.startPart
    | .process, f, f' => f.startPart.ProcessRely f'.startPart
    | .store, f, f' => f.startPart.StoreRely f'.startPart
    | _, f, f' => f.startPart.Keeps f'.startPart
  rely_refl i f := by
    cases i with
    | main => exact .refl _
    | process => exact .of_eq rfl rfl rfl rfl rfl rfl
    | store => exact ⟨rfl⟩
    | _ => exact .of_eq rfl rfl rfl
  rely_trans i f₁ f₂ f₃ h h' := by
    cases i with
    | main => exact h.trans h'
    | process => exact h.trans h'
    | store => exact ⟨h'.storing.trans h.storing⟩
    | _ => exact h.trans h'
  loop
    | .main, f => f.startPart.BlockOfWip
    | .process, f => f.processBusy = false
    | _, _ => True
  pre i _ _ _ := i = .main
  post _ _ _ f := f.startPart.BlockOfWip
  expected _ := True

lemma sees_startPart : startOutline.Sees startPart where
  inv heq hinv := by
    show Inv _
    rw [heq]
    exact hinv
  rely {j f f'} heq := by
    have hr := startOutline.rely_refl j f
    cases j <;> simp only [startOutline, heq] at hr ⊢ <;> exact hr

/-! ## Code that leaves the start of batches -/

abbrev LeavesStart {α : Type} (code : Run α) : Prop :=
  code.Within (fun f f' => f'.startPart = f.startPart) fun _ => True

lemma startPart_unfilled : f.unfilled.startPart = f.startPart := by
  simp only [startPart, unfilled, still, map_map, Option.map_map]
  rfl

lemma startPart_unclosed : f.unclosed.startPart = f.startPart := by
  simp only [startPart, unclosed, still, map_map, head?_map, Option.map_map]
  rfl

variable {f' f : Finalizer}

lemma SameUnfilled.startPart_eq (h : SameUnfilled f f') : f'.startPart = f.startPart := by
  rw [← startPart_unfilled f', h.eq, startPart_unfilled]

variable {α : Type} {code : Run α}

lemma leavesStart_of_unfilled (h : code.Within SameUnfilled OtherFault) : LeavesStart code :=
  h.mono (fun _ _ => SameUnfilled.startPart_eq) fun _ _ => trivial

lemma Stays.leavesStart (h : Stays code) : LeavesStart code := leavesStart_of_unfilled h.unfilled

lemma leavesStart_of_unclosed (h : code.Within SameUnclosed OtherFault) : LeavesStart code := by
  refine h.mono (fun f f' hs => ?_) fun _ _ => trivial
  rw [← startPart_unclosed f', hs.eq, startPart_unclosed]

variable {r : BatchRef} {b : HeapBatch}

lemma startPart_batches (hb : f.batches[r]? = some b) : f.startPart.batches[r]? = some b.roots := by
  rw [startPart, getElem?_map, hb]
  rfl

lemma startPart_setBatch {b' : HeapBatch} (hb : f.batches[r]? = some b) (h : b'.roots = b.roots) :
    (f.setBatch r b').startPart = f.startPart := by
  simp only [startPart, setBatch, map_set_of_eq hb h]

section
variable {f f' : Finalizer} {i : Goroutine} {α : Type}

lemma wp_haltStart {Q : α → Finalizer → Prop} : startOutline.Wp i Q halt f := by
  refine (sees_startPart.wp_within (P := fun _ => True) ?_ (fun _ _ h _ => h) trivial).seq
    fun _ _ _ => trivial
  exact within_modify fun _ => rfl

lemma main_start : startOutline.Party .main startPart Inv MainRely MainStep where
  sees := sees_startPart
  inv h := h
  rely h := h
  step h := by
    refine ⟨h.inv, fun j hj => ?_⟩
    cases j with
    | main => exact absurd rfl hj
    | process => exact h.process
    | store => exact h.store
    | _ => exact h.process.keeps
  expected _ := trivial

lemma process_start : startOutline.Party .process startPart Inv
    StartPart.ProcessRely StartPart.ProcessStep where
  sees := sees_startPart
  inv h := h
  rely h := h
  step h := by
    refine ⟨h.inv, fun j hj => ?_⟩
    cases j with
    | main => exact h.main
    | process => exact absurd rfl hj
    | store => exact h.store
    | _ => exact h.keeps
  expected _ := trivial

lemma store_start : startOutline.Party .store startPart Inv StartPart.StoreRely
    StartPart.StoreStep where
  sees := sees_startPart
  inv h := h
  rely h := h
  step h := by
    refine ⟨h.inv, fun j hj => ?_⟩
    cases j with
    | main => exact h.main
    | process => exact h.process
    | store => exact absurd rfl hj
    | _ => exact h.process.keeps
  expected _ := trivial

lemma setWipL2Block_step {p : StartPart} (hi : p.Inv) (x : Option (Option BatchRef)) :
    p.MainStep { p with wipL2Block := x } := by
  refine ⟨hi.fewer (.of_isPrefix hi (prefix_refl _)) rfl rfl rfl (fun _ hw => hw) rfl rfl
    rfl hi.processing, .of_eq rfl rfl rfl rfl rfl rfl, ⟨rfl⟩⟩
end

/-! ## The main loop -/

section
variable {cfg : FinalizerCfg} {f : Finalizer}

/-- The L2 block in progress is in the batch in progress after the code. -/
abbrev EndsInWip {α : Type} (code : Run α) (f : Finalizer) : Prop :=
  startOutline.Wp .main (fun _ f => f.startPart.BlockOfWip) code f

lemma wp_closeL2Block_start (h : f.startPart.BlockOfWip) : EndsInWip closeWIPL2Block f := by
  -- the L2 block stays one of the batch in progress until it is sent
  let Sends (blk : PendingL2Block) (p : StartPart) : Prop :=
    blk.batch = none ∨ blk.batch = p.wipBatch
  have hs : ∀ blk, Stable (Sends blk) := by
    intro blk p p' hP hr
    exact hP.imp_right fun hP => hP.trans hr.wipBatch.symm
  refine (main_start.look stable_blockOfWip h).seq fun blk f hf => ?_
  obtain ⟨ho, hl⟩ := hf
  have hb : Sends blk f.startPart := by
    refine ho blk.batch ?_
    rw [startPart, deref_ok_iff.mp hl]
    rfl
  refine (main_start.keeps (hs blk) (within_action (fun _ _ _ => trivial) fun f a f' hf => ?_)
    hb).seq fun _ f hb => ?_
  · obtain ⟨wip, ha, -, rfl⟩ := bind_pair_inj hf
    exact startPart_setBatch (batchAt_ok_iff.mp ha).2 rfl
  refine (main_start.keeps (hs blk) (stays_await _).leavesStart hb).seq fun _ f hb => ?_
  refine (main_start.modify (Q := fun _ => True) (hs blk) hb fun f hP hi => ?_).seq fun _ f _ => ?_
  · have he := hi.send hP
    simp only [startPart, map_append] at he ⊢
    exact ⟨he, trivial⟩
  have ht : Stable fun _ => True := fun _ _ h _ => h
  refine (main_start.keeps ht (stays_deref other_nilPointer _).leavesStart trivial).seq
    fun _ f _ => ?_
  refine wp_ask fun sync => ?_
  refine (main_start.keeps ht (within_when stays_syncStateRoot.leavesStart) trivial).seq
    fun _ f _ => ?_
  refine main_start.modify ht trivial fun f _ hi => ?_
  exact ⟨setWipL2Block_step hi none, nofun⟩

lemma processIdle_start (h : f.processIdle = true) : f.startPart.ProcessIdle := by
  simp only [processIdle, Bool.and_eq_true, List.isEmpty_iff, Bool.not_eq_true'] at h
  refine ⟨?_, h.2⟩
  rw [startPart, h.1]
  rfl

lemma storeIdle_start (h : f.storeIdle = true) :
    f.startPart.toStore = [] ∧ f.startPart.storing = none := by
  simp only [storeIdle, Bool.and_eq_true, List.isEmpty_iff, Option.isNone_iff_eq_none] at h
  simp only [startPart, h]
  exact ⟨rfl, rfl⟩

lemma wp_waitL2Blocks_start {P : StartPart → Prop} (hs : Stable P) (h : P f.startPart) :
    startOutline.Wp .main (fun _ f => P f.startPart ∧ f.startPart.Idle) waitPendingL2Blocks f := by
  refine (wp_await (Q := fun _ f => P f.startPart ∧ f.startPart.ProcessIdle) fun f' hr _ hd => ⟨hs _
    _ h hr, processIdle_start hd⟩).seq fun _ f hf => ?_
  refine wp_await fun f' hr _ hd => ⟨hs _ _ hf.1 hr, ?_⟩
  obtain ⟨ht, hg⟩ := storeIdle_start hd
  exact ⟨hr.processIdle hf.2, ht, hg⟩

lemma wp_closeForNextBatch_start (fb : Bool) (h : f.startPart.BlockOfWip) :
    startOutline.Wp .main (fun _ f => f.startPart.BlockOfWip ∧ (fb = true → f.startPart.Idle))
    (closeForNextBatch cfg fb) f := by
  have hs := stable_blockOfWip
  rcases fb with _ | _
  · refine (main_start.keeps hs (stays_lookBatch _).leavesStart h).seq fun wip f hf => ?_
    exact ⟨hf, nofun⟩
  have hi := hs.and stable_idle
  refine (wp_closeL2Block_start h).seq fun _ f hf => ?_
  refine (wp_waitL2Blocks_start hs hf).seq fun _ f hf => ?_
  refine (main_start.keeps hi (stays_lookBatch _).leavesStart hf).seq fun sip f hf => ?_
  refine (main_start.keeps hi (leavesStart_of_unclosed (unclosed_finalizeSIP cfg))
    hf).seq fun closed f hf => ?_
  refine (main_start.keeps hi (within_when stays_fatal.leavesStart) hf).seq fun _ f hf => ?_
  exact ⟨hf.1, fun _ => hf.2⟩

lemma wp_closeWIPBatch_start {fb : Prop} (h : fb → f.startPart.Idle) : startOutline.Wp .main
    (fun nm f => f.startPart.Closed nm ∧ (fb → f.startPart.Idle)) closeWIPBatch f := by
  -- the batch in progress and its number
  let Wip (wip : BatchRef × HeapBatch) (p : StartPart) : Prop :=
    p.wipBatch = some wip.1 ∧ p.numbers[wip.1]? = some wip.2.batchNumber
  have hs : ∀ wip, Stable (Wip wip) := by
    intro wip p p' hP hr
    exact ⟨hr.wipBatch.trans hP.1, hr.numbers ▸ hP.2⟩
  have hi := stable_idle.imp fb
  refine (main_start.look hi h).seq fun wip f hf => ?_
  obtain ⟨hil, hl⟩ := hf
  obtain ⟨hw, hb⟩ := batchAt_ok_iff.mp hl
  split_ifs with hcn
  · exact (main_start.keeps hi stays_emptyClosed.leavesStart hil).seq fun _ _ _ => wp_haltStart
  have hW : Wip wip f.startPart := by
    refine ⟨hw, ?_⟩
    rw [StartPart.numbers, getElem?_map, startPart_batches hb]
    rfl
  refine (main_start.modify (Q := fun p => p.Closed wip.2.batchNumber ∧ (fb → p.Idle))
    ((hs wip).and hi) ⟨hW, hil⟩ fun f hP hn => ?_).seq fun _ f hf => hf
  obtain ⟨hp, hc⟩ := hn.closeWip hP.1.1 hP.1.2
  refine ⟨hp, hc, fun hfr => ?_⟩
  have hi := hP.2 hfr
  exact ⟨⟨hi.toProcess, hi.processBusy⟩, hi.toStore, hi.storing⟩

lemma wp_haltOnBatch_start {Q : Unit → Finalizer → Prop} :
    startOutline.Wp .main Q (haltOnBatchNumber cfg) f := by
  have ht : Stable fun _ => True := fun _ _ h _ => h
  refine (main_start.keeps ht stays_waitL2Blocks.leavesStart trivial).seq fun _ f _ => ?_
  refine (main_start.keeps ht (leavesStart_of_unclosed (unclosed_finalizeSIP cfg))
    trivial).seq fun _ f _ => ?_
  refine (main_start.keeps ht (within_when stays_fatal.leavesStart) trivial).seq fun _ f _ => ?_
  exact wp_haltStart

variable (last : UInt64 × Hash)

abbrev Forcing (p : StartPart) : Prop := p.Between last ∧ p.Idle

lemma stable_forcing : Stable (Forcing last) := (StartPart.stable_between last).and stable_idle

variable {nm : UInt64}

lemma wp_processForcedBatch_start {root : Hash} (h : Forcing (nm, root) f.startPart) :
    startOutline.Wp .main (fun result f => Forcing (result.getD (nm, root)) f.startPart)
    (processForcedBatch nm) f := by
  have hw : ∀ g : Worker → Outcome WorkerError (Worker × Unit),
      LeavesStart (callWorker g) := fun g => leavesStart_of_unfilled (unfilled_callWorker g)
  refine wp_ask fun ans => ?_
  refine (main_start.keeps (stable_forcing _) (within_forEach (fun tx => hw _) _) h).seq
    fun _ f hf => ?_
  refine (main_start.keeps (stable_forcing _) (within_forEach (fun tx => hw _) _) hf).seq
    fun _ f hf => ?_
  rcases ans.newStateRoot with _ | newRoot
  · exact hf
  refine (main_start.modify (Q := Forcing (nm + 1, newRoot)) (stable_forcing _) hf
    fun f hP hi => ?_).seq fun _ f hf => hf
  exact hi.pushForced hP.2 hP.1.wipBatch (nm + 1, newRoot)

lemma wp_forcedBatchesLoop_start (forced : List UInt64) (next nm : UInt64) (root : Hash)
    (h : Forcing (nm, root) f.startPart) : startOutline.Wp .main
    (fun result f => Forcing result.1 f.startPart) (forcedBatchesLoop forced next nm root) f := by
  induction forced generalizing next nm root f with
  | nil => exact h
  | cons fb rest ih =>
    rw [forcedBatchesLoop]
    split_ifs with hs
    · exact ih next nm root h
    refine (main_start.keeps (stable_forcing _) ?_ h).seq fun found f hf => ?_
    · rw [findForcedBatch]
      split_ifs
      · exact within_ask _
      · trivial
    rcases found with _ | _
    · exact hf
    refine (wp_processForcedBatch_start hf).seq fun result f hf => ?_
    cases result with
    | none => exact hf
    | some result => exact ih _ result.1 result.2 hf

lemma wp_processForcedBatches_start {root : Hash} (h : Forcing (nm, root) f.startPart) :
    startOutline.Wp .main (fun last f => f.startPart.Between last)
    (processForcedBatches nm root) f := by
  refine (main_start.keeps (stable_forcing _) (within_action (fun _ _ _ => trivial)
    fun f a f' hf => ?_) h).seq fun _ f hf => ?_
  · cases hf
    rfl
  refine Wp.seq (Q := fun result f => Forcing result.1 f.startPart) ?_ fun result f hf => ?_
  · refine wp_ask fun lf => ?_
    rcases lf with _ | lf
    · exact hf
    refine (main_start.keeps (stable_forcing _) (stays_lookField _).leavesStart hf).seq
      fun fb f hf => ?_
    exact wp_forcedBatchesLoop_start fb _ nm root hf
  · refine (main_start.keeps (stable_forcing _) ?_ hf).seq fun _ f hf => hf.1
    exact within_modify fun _ => rfl

lemma wp_lastBatch_start {fb : Bool} {root : Hash} (h : f.startPart.Closed nm)
    (hi : fb = true → f.startPart.Idle) : startOutline.Wp .main
    (fun last f => f.startPart.Between last) (lastBatch fb nm root) f := by
  cases fb with
  | false => exact h.between root
  | true => exact wp_processForcedBatches_start ⟨h.between root, hi rfl⟩

variable {args : NewL2BlockArgs}

lemma wp_runOpenBlock_start : EndsInWip (.run args) f := wp_run () (fun _ _ => rfl) fun _ hf => hf

lemma wp_initL2Block_start : EndsInWip initWIPL2Block f := by
  refine wp_ask fun ra => ?_
  cases ra with
  | none => trivial
  | some t => exact wp_runOpenBlock_start

lemma wp_carryL2Block_start : EndsInWip carryL2Block f := by
  refine main_start.act (P := fun _ => True) (Q := fun _ p => p.BlockOfWip) (fun _ _ h _ => h)
    trivial fun f a f' _ hi hf => ?_
  rcases hl : f.wipL2Block with _ | blk
  · simp only [hl] at hf
    cases hf
    refine ⟨setWipL2Block_step hi _, fun x hx => ?_⟩
    simp only [startPart, hl] at hx
    cases hx
  simp only [hl] at hf
  obtain ⟨wip, ha, hf⟩ := ok_of_bind hf
  split_ifs at hf
  cases hf
  obtain ⟨hw, hb⟩ := batchAt_ok_iff.mp ha
  have hs : (f.setBatch wip.1 { wip.2 with
      toBatch := { (wip.2.toBatch.carryL2Block blk.usedZKCountersOnNew blk.bytes).1 with
        imStateRoot := blk.imStateRoot } }).startPart = f.startPart :=
    startPart_setBatch hb rfl
  have hp := setWipL2Block_step hi (some (some wip.1))
  rw [← hs] at hp
  refine ⟨hs ▸ hp, fun x hx => .inr ?_⟩
  exact (Option.some.inj hx).symm.trans hw.symm

lemma startPart_openBatch (f : Finalizer) (num : UInt64) (sr : Hash) :
    (f.openWIPBatch cfg num sr).startPart = f.startPart.openWip ⟨num, sr, sr⟩ f.pipBatch := by
  simp only [startPart, openWIPBatch, StartPart.openWip, map_append, length_map]
  rfl

lemma wp_reopenBatch_start (h : f.startPart.BlockOfWip) :
    EndsInWip (closeAndOpenNewWIPBatch cfg) f := by
  refine (main_start.keeps stable_blockOfWip (within_action (fun _ _ _ => trivial)
    fun f a f' hf => ?_) h).seq fun fb f hf => ?_
  · cases hf
    rfl
  refine (wp_closeForNextBatch_start fb hf).seq fun root f hf => ?_
  refine (wp_closeWIPBatch_start hf.2).seq fun nm f hf => ?_
  refine (wp_when (Q := fun _ f => f.startPart.Closed nm ∧ (fb = true → f.startPart.Idle)) (fun _ =>
    wp_haltOnBatch_start) fun _ => hf).seq fun _ f hf => ?_
  refine (wp_lastBatch_start hf.1 hf.2).seq fun last f hf => ?_
  refine (main_start.modify (Q := fun _ => True) (StartPart.stable_between last) hf
    fun f hP hi => ?_).seq fun _ f _ => ?_
  · rw [startPart_openBatch]
    exact ⟨hi.openWip_step hP.opens, trivial⟩
  cases fb with
  | false => exact wp_carryL2Block_start
  | true => exact wp_initL2Block_start

lemma leavesStart_takeNewL2Block (resp : ProcessBatchResponse) :
    LeavesStart (.act fun f => f.takeNewL2Block resp) := by
  refine within_action (fun _ _ _ => trivial) fun f a f' hf => ?_
  obtain ⟨r, b, b', blk, blk', -, hb, hsl, hl, ht, -, rfl⟩ := takeNewL2Block_ok hf
  have hs := (still_setBatch hb hsl).sameUnfilled.startPart_eq
  have hp : Finalizer.startPart { f.setBatch r b' with wipL2Block := some blk' } =
      { (f.setBatch r b').startPart with wipL2Block := some blk'.batch } := rfl
  rw [hp, hs, ht]
  simp only [startPart, hl, Option.map_some]

lemma wp_openL2Block_start : EndsInWip (openNewWIPL2Block cfg args) f := by
  have hs := stable_blockOfWip
  refine wp_ask fun inp => ?_
  refine (main_start.modify (P := fun _ => True) (Q := StartPart.BlockOfWip) (fun _ _ h _ => h)
    trivial fun f _ hi => ⟨setWipL2Block_step hi (some none), fun x hx => .inl ?_⟩).seq
    fun _ f hf => ?_
  · exact (Option.some.inj hx).symm
  refine (main_start.keeps hs (stays_lookBatch _).leavesStart hf).seq fun _ f hf => ?_
  refine wp_ask fun ans => ?_
  rcases ans with _ | resp
  · exact wp_haltStart
  dsimp only
  split_ifs
  · exact wp_haltStart
  refine (main_start.keeps hs (leavesStart_takeNewL2Block resp) hf).seq fun fits f hf => ?_
  refine (wp_when (fun _ => wp_reopenBatch_start hf) fun _ => hf).seq fun _ f hf => ?_
  refine main_start.act (Q := fun _ => StartPart.BlockOfWip) hs hf fun f a f' _ hi hf => ?_
  obtain ⟨blk, -, -, rfl⟩ := bind_pair_inj hf
  refine ⟨setWipL2Block_step hi (some f.wipBatch), fun x hx => .inr ?_⟩
  exact (Option.some.inj hx).symm

lemma wp_finalizeL2Block_start (h : f.startPart.BlockOfWip) : EndsInWip finalizeWIPL2Block f := by
  refine (main_start.keeps stable_blockOfWip
    (stays_deref other_nilPointer _).leavesStart h).seq fun blk f hf => ?_
  exact (wp_closeL2Block_start hf).seq fun _ f _ => wp_runOpenBlock_start

lemma wp_finalizeBatch_start (h : f.startPart.BlockOfWip) : EndsInWip (finalizeWIPBatch cfg) f := by
  have hs := stable_blockOfWip
  refine (main_start.keeps hs (stays_deref other_nilPointer _).leavesStart h).seq fun blk f hf => ?_
  refine (wp_when (fun _ => wp_closeL2Block_start hf) fun _ => hf).seq fun _ f hf => ?_
  refine (wp_reopenBatch_start hf).seq fun _ f hf => ?_
  refine (main_start.keeps hs (stays_lookField _).leavesStart hf).seq fun closed f hf => ?_
  exact wp_when (fun _ => wp_runOpenBlock_start) fun _ => hf

lemma stable_last (row : UInt64 × Hash) : Stable fun p => p.Idle ∧ p.last = some row := by
  intro p p' hP hr
  obtain ⟨hi, hl⟩ := hr.idle hP.1
  exact ⟨hi, hl.trans hP.2⟩

lemma wp_initBatch_start (h : f.startPart.Idle) :
    startOutline.Wp .main (fun _ _ => True) (initWIPBatch cfg) f := by
  refine (main_start.look stable_idle h).seq fun row f hf => ?_
  obtain ⟨hd, hl⟩ := hf
  have hr : f.startPart.last = some (row.batchNumber, row.stateRoot) := by
    rw [startPart, deref_ok_iff.mp hl]
    rfl
  split_ifs
  · refine main_start.act (Q := fun _ _ => True) (stable_last _) ⟨hd, hr⟩ fun f a f' hP hi hf => ?_
    obtain ⟨prev, -, hf⟩ := ok_of_bind hf
    obtain ⟨wip, he, -, rfl⟩ := bind_pair_inj hf
    obtain ⟨hn, -⟩ := setWIPBatch_info he
    have ho : f.startPart.Opens wip.roots := .inr ⟨hP.1, _, hP.2, .inl hn⟩
    have hb : ∀ q, some f.batches.length = some q → q ≤ f.startPart.batches.length := by
      intro q hq
      rw [← Option.some.inj hq, startPart, length_map]
    have hs := hi.initWip_step ho hP.1 hb
    simp only [startPart, StartPart.openWip, map_append, length_map] at hs ⊢
    exact ⟨hs, trivial⟩
  · exact wp_haltStart
  refine main_start.modify (Q := fun _ => True) (stable_last _) ⟨hd, hr⟩
    fun f hP hi => ⟨?_, trivial⟩
  have ho : f.startPart.Opens ⟨row.batchNumber + 1, row.stateRoot, row.stateRoot⟩ :=
    .inr ⟨hP.1, _, hP.2, .inr rfl⟩
  have hb : ∀ q, none = some q → q ≤ f.startPart.batches.length := fun q hq => by cases hq
  have hs := hi.initWip_step ho hP.1 hb
  simp only [startPart, openWIPBatch, StartPart.openWip, map_append, length_map] at hs ⊢
  exact hs

lemma startPart_reorged (f : Finalizer) (drop back : List Hash) : Finalizer.startPart { f with
    l2BlockReorg := false
    trace := f.trace ++ [.reorged drop back] } = f.startPart := by
  simp only [startPart, started_concat, propagated_concat]
  simp [startedBatches, propagatedRoots]

lemma wp_restartBatch_start (h : f.startPart.Idle) : EndsInWip (restartBatch cfg) f := by
  refine (main_start.keeps stable_idle ?_ h).seq fun _ f hf => ?_
  · refine (within_ask _).bind fun visits => ?_
    refine (within_ask _).bind fun state => ?_
    exact Within.mono (within_workerWhen fun _ _ _ => rfl) (fun _ _ h => h) fun _ _ => trivial
  refine (wp_initBatch_start hf).seq fun _ f _ => ?_
  refine wp_initL2Block_start.seq fun _ f hf => ?_
  refine main_start.keeps stable_blockOfWip ?_ hf
  exact within_modify fun f => startPart_reorged f _ _

lemma wp_l2Reorg_start (h : f.startPart.BlockOfWip) : EndsInWip (processL2BlockReorg cfg) f := by
  have hs := stable_blockOfWip
  refine (wp_waitL2Blocks_start hs h).seq fun _ f hf => ?_
  refine (main_start.keeps (hs.and stable_idle)
    (leavesStart_of_unclosed (unclosed_closePrev cfg)) hf).seq fun closed f hf => ?_
  exact wp_when (fun _ => wp_restartBatch_start hf.2) fun _ => hf.1

lemma wp_finalizeBatches_start (h : f.startPart.BlockOfWip) :
    EndsInWip (finalizeBatches cfg) f := by
  have hs := stable_blockOfWip
  refine mainKeeps_of_unfilled (J := fun f => f.startPart.BlockOfWip) (fun f h => ?_) (fun _ =>
    wp_l2Reorg_start) (fun _ => wp_finalizeL2Block_start) (fun hc _ h => main_start.keeps hs
    (leavesStart_of_unfilled hc) h) (fun _ => wp_finalizeBatch_start) f h
  exact (main_start.keeps hs (stays_lookField _).leavesStart h).mono fun _ _ h => ⟨h, fun _ => h⟩

lemma wp_start_start (h : f.startPart.Idle) : EndsInWip (start cfg) f := by
  refine (wp_initBatch_start h).seq fun _ f _ => ?_
  refine wp_initL2Block_start.seq fun _ f hf => ?_
  exact main_start.keeps stable_blockOfWip (within_modify fun _ => rfl) hf
end

/-- The first action of `processL2Block` for a block of the batch `r`: the root from which
the block is executed. -/
def startBlock (f : Finalizer) (r : BatchRef) : Except Fault (Hash × Finalizer) := do
  let b ← f.batchAt (some r)
  let f ← f.propagate r b.2
  let pip ← f.batchAt f.pipBatch
  .ok (pip.2.finalStateRoot, f)

lemma startBlock_ok {root : Hash} (h : f.startBlock r = .ok (root, f')) :
    ∃ b p pip, f.batches[r]? = some b ∧ f.propagate r b = .ok f' ∧ f'.pipBatch = some p ∧
    f'.batches[p]? = some pip ∧ root = pip.finalStateRoot := by
  obtain ⟨b, ha, h⟩ := ok_of_bind h
  obtain ⟨g, hg, h⟩ := ok_of_bind h
  obtain ⟨pip, hpp, rfl, rfl⟩ := bind_pair_inj h
  obtain ⟨hr, hb⟩ := batchAt_ok_iff.mp ha
  cases hr
  obtain ⟨hp, hpp⟩ := batchAt_ok_iff.mp hpp
  exact ⟨b.2, pip.1, pip.2, hb, hg, hp, hpp, rfl⟩

section
variable {f : Finalizer} {blk : PendingL2Block} {r : BatchRef}

lemma wp_discardL2Block_start (h : f.startPart.Taken blk.batch) :
    startOutline.Wp .process (fun _ f => f.startPart.Done) (discardL2Block blk) f :=
  process_start.modify (processStable_taken _) h fun _ hP hi =>
    ⟨hi.discard hP, rfl, hP.busy⟩

lemma propagate_start (hi : f.startPart.Inv) (hp : f.startPart.Taken (some r))
    (hb : f.batches[r]? = some b) (h : f.propagate r b = .ok f') :
    f.startPart.ProcessStep f'.startPart ∧ f'.startPart.Starts r := by
  have hm : f.startPart.numbers[r]? = some b.batchNumber := by
    rw [StartPart.numbers, getElem?_map, startPart_batches hb]
    rfl
  rcases propagate_ok h with ⟨hpp, rfl⟩ | ⟨q, pip, hpp, ha, hf⟩
  · exact ⟨hi.setPip hp hpp, ⟨hp.processing, hp.busy⟩, r, b.batchNumber, rfl, hm, hm⟩
  have hpi : f.startPart.numbers[q]? = some pip.batchNumber := by
    rw [StartPart.numbers, getElem?_map, startPart_batches ha]
    rfl
  rcases hf with ⟨he, rfl⟩ | ⟨hne, rfl⟩
  · refine ⟨⟨hi, .refl _, ⟨rfl⟩, .of_eq rfl rfl rfl⟩, hp, q, b.batchNumber, hpp, ?_, hm⟩
    rw [← he]
    exact hpi
  have hu : r ∉ f.startPart.started := by
    intro hr
    obtain ⟨q', n, hq', hn, hn'⟩ := hi.inProcess r (mem_of_head? hp.head?) hr
    obtain rfl := Option.mem_unique hpp hq'
    rw [hpi] at hn
    rw [hm] at hn'
    exact hne (Option.some.inj (hn.trans hn'.symm))
  let b' : BatchRoots := ⟨b.batchNumber, pip.finalStateRoot, pip.finalStateRoot⟩
  have he : b'.number = b.roots.number := rfl
  have hpr : Finalizer.startPart { f.setBatch r { b with
        initialStateRoot := pip.finalStateRoot
        finalStateRoot := pip.finalStateRoot } with
      pipBatch := some r
      trace := f.trace ++ [.propagated q r pip.finalStateRoot] } =
        f.startPart.start r b' (some r) [(r, pip.finalStateRoot)] := by
    simp only [startPart, setBatch, StartPart.start, map_set, started_concat, propagated_concat]
    rfl
  have hin : (f.startPart.start r b' (some r) [(r, pip.finalStateRoot)]).InProcess r := by
    rw [StartPart.InProcess, numbers_start (startPart_batches hb) he]
    exact ⟨r, b.batchNumber, rfl, hm, hm⟩
  rw [hpr]
  refine ⟨hi.start_step hp (startPart_batches hb) he hin (.inr ⟨hu, ?_⟩),
    ⟨hp.processing, hp.busy⟩, hin⟩
  exact mem_cons_self

lemma takeResp_start {root : Hash} {ans : Option ProcessBatchResponse} {res : Option PendingL2Block}
    (hv : f.startPart.Inv) (hp : f.startPart.Starts r) (hk : blk.batch = some r)
    (h : f.takeResponse r blk root ans = .ok (res, f')) : f.startPart.ProcessStep f'.startPart ∧
    f'.startPart.Started r ∧ ∀ blk', res = some blk' → blk'.batch = some r := by
  obtain ⟨b, b', hb, hm, hi, hf⟩ := takeResp_ok h
  have hn : b'.roots.number = b.roots.number := congrArg Prod.fst (HeapBatch.mainPart_eq hm)
  have hr : ∀ new, Finalizer.startPart { f.setBatch r b' with
      trace := f.trace ++ [.executed r root new] } =
        f.startPart.start r b'.roots f.pipBatch [] := by
    intro new
    simp only [startPart, setBatch, StartPart.start, map_set, started_concat, propagated_concat]
    rfl
  have hin : (f.startPart.start r b'.roots f.pipBatch []).InProcess r := by
    rw [StartPart.InProcess, numbers_start (startPart_batches hb) hn]
    exact hp.inProcess
  have hsp := hv.start_step hp.toTaken (startPart_batches hb) hn hin (.inl hi)
  have hs : (f.startPart.start r b'.roots f.pipBatch []).Started r :=
    ⟨⟨hp.processing, hp.busy⟩, mem_append_cons_self⟩
  rcases hf with ⟨rfl, -, rfl⟩ | ⟨resp, _, rfl, -, rfl⟩
  · rw [hr]
    exact ⟨hsp, hs, fun _ h => by cases h⟩
  rw [hr]
  refine ⟨hsp, hs, fun blk' hl => ?_⟩
  cases hl
  exact hk

lemma wp_processL2Block_start (h : f.startPart.Taken blk.batch) :
    startOutline.Wp .process (fun processed f => if processed then f.startPart.Done
    else f.startPart.Taken blk.batch) (processL2Block blk) f := by
  refine (wp_lookKnowing (P := StartPart.Taken blk.batch) (fun _ _ _ => trivial)
    (fun _ _ hP hr => processStable_taken _ _ _ hP hr) h).seq fun r f hf => ?_
  obtain ⟨ht, hl⟩ := hf
  have hbl := deref_ok_iff.mp hl
  rw [hbl] at ht
  refine (process_start.act (Q := fun _ => StartPart.Starts r) (processStable_taken _) ht
    fun f root f' hP hi hf => ?_).seq fun root f hss => ?_
  · obtain ⟨b, p, pip, hb, hp, -⟩ := startBlock_ok hf
    exact propagate_start hi hP hb hp
  refine wp_ask fun ans => ?_
  refine (process_start.act (Q := fun result p => p.Started r ∧ ∀ blk', result = some blk' →
    blk'.batch = some r) (processStable_starts r) hss fun f result f' hP hi hf => takeResp_start hi
    hP hbl hf).seq fun result f hf => ?_
  rcases result with _ | blk'
  · rw [hbl]
    exact hf.1.toTaken
  refine (process_start.keeps (processStable_started r) (stays_await _).leavesStart hf.1).seq
    fun _ f hd => ?_
  refine (process_start.modify (Q := StartPart.Done) (processStable_started r) hd
    fun f hP hi => ?_).seq fun _ f hf => hf
  have hs := hi.pop_step hP.toTaken (.inr ⟨hP.started, rfl⟩)
  rw [← hf.2 blk' rfl] at hs
  simp only [startPart, map_append] at hs ⊢
  exact ⟨hs, rfl, hP.busy⟩

lemma wp_handlePendingL2Block_start (h : f.startPart.Taken blk.batch) :
    startOutline.Wp .process (fun _ f => f.startPart.Done) (handlePendingL2Block blk) f := by
  have hs := processStable_taken blk.batch
  refine (process_start.keeps hs (stays_lookField _).leavesStart h).seq fun reorged f hf => ?_
  cases reorged with
  | true => exact wp_discardL2Block_start hf
  | false =>
    refine (wp_processL2Block_start hf).seq fun processed f hf => ?_
    cases processed with
    | true =>
      exact process_start.keeps processStable_done (within_modify fun _ => rfl) hf
    | false =>
      refine (process_start.keeps hs (within_update fun _ => rfl) hf).seq fun wr f hf => ?_
      refine (process_start.keeps hs (within_when stays_halt.leavesStart) hf).seq fun _ f hf => ?_
      exact wp_discardL2Block_start hf

lemma wp_processL2Blocks_start (h : f.processBusy = false) :
    startOutline.Wp .process (fun _ f => f.processBusy = false) processPendingL2Blocks f := by
  refine (process_start.act (P := fun p => p.processBusy = false) (Q := fun blk : PendingL2Block =>
    StartPart.Taken blk.batch) (fun _ _ hP hr => hr.processBusy.trans hP) h fun f blk f' hP hi hf =>
    ?_).seq fun blk f hf => ?_
  · obtain ⟨first, hh, rfl, rfl⟩ := bind_pair_inj hf
    have hc := eq_cons_of_mem_head? (deref_ok_iff.mp hh)
    have hm : f.startPart.toProcess = first.batch :: f.pendingL2BlocksToProcess.tail.map
      PendingL2Block.batch := congrArg (List.map PendingL2Block.batch) hc
    exact ⟨hi.take hP hm, rfl, rfl⟩
  refine (wp_handlePendingL2Block_start hf).seq fun _ f hf => ?_
  exact process_start.modify (Q := fun p => p.processBusy = false) processStable_done hf
    fun f hP hi => ⟨hi.free hP.processing hP.busy, rfl⟩
end

section
variable {cfg : FinalizerCfg} {f : Finalizer} {blk : PendingL2Block} (x : Option BatchRef)

def Stores (p : StartPart) : Prop := p.storing = some x

lemma stable_stores (p p' : StartPart) (h : Stores x p) (hr : p.StoreRely p') : Stores x p' :=
  hr.storing.trans h

lemma wp_keepsStores {x : Option BatchRef} (hc : LeavesStart code) (h : Stores x f.startPart) :
    startOutline.Wp .store (fun _ f => Stores x f.startPart) code f :=
  store_start.keeps (stable_stores x) hc h

lemma commitL2Block_start {resp : ProcessBatchResponse} (hi : f.startPart.Inv)
    (hp : Stores blk.batch f.startPart) (h : f.commitL2Block cfg r blk resp = .ok f') :
    f.startPart.StoreStep f'.startPart ∧ Stores blk.batch f'.startPart := by
  obtain ⟨state, sb, rfl⟩ := commitL2Block_ok h
  refine ⟨?_, rfl⟩
  have hs := hi.setStoring (.inr (hp ▸ Option.some_ne_none _)) f.startPart.toStore (some blk.batch)
    (fun r hr => hp ▸ hr) (state.head?.map fun row => (row.batchNumber, row.stateRoot))
  simp only [startPart, started_concat, propagated_concat] at hs ⊢
  simpa [startedBatches, propagatedRoots] using hs

lemma leavesStart_deletePendingTx (tx : BlockTx) : LeavesStart (deleteStored tx) := by
  refine Within.mono (within_workerWhen fun f w _ => ?_) (fun _ _ h => h) fun _ _ => trivial
  simp only [startPart, Option.map_map]
  rfl

lemma wp_storeL2Block_start (h : Stores blk.batch f.startPart) : startOutline.Wp .store
    (fun _ f => Stores blk.batch f.startPart) (storeL2Block cfg blk) f := by
  refine wp_storeL2Block (J := fun f => Stores blk.batch f.startPart) (fun hc _ => wp_keepsStores
    hc.leavesStart) (fun hc _ => wp_keepsStores hc.leavesStart) (fun r resp f hf => ?_) (fun f hf =>
    ?_) h
  · refine store_start.act (Q := fun _ => Stores blk.batch) (stable_stores blk.batch) hf
      fun f a f' hP hi hf => ?_
    exact commitL2Block_start hi hP (commitL2Block_of_map hf)
  · exact wp_keepsStores (within_forEach leavesStart_deletePendingTx _) hf

lemma wp_storeL2Blocks_start :
    startOutline.Wp .store (fun _ _ => True) (storePendingL2Blocks cfg) f := by
  refine (store_start.act (P := fun _ => True) (Q := fun blk : PendingL2Block => Stores blk.batch)
    (fun _ _ h _ => h) trivial fun f blk f' _ hi hf => ?_).seq fun blk f hf => ?_
  · obtain ⟨first, hh, rfl, rfl⟩ := bind_pair_inj hf
    have hc := eq_cons_of_mem_head? (deref_ok_iff.mp hh)
    have hm : f.startPart.toStore = first.batch :: f.pendingL2BlocksToStore.tail.map
      PendingL2Block.batch := congrArg (List.map PendingL2Block.batch) hc
    refine ⟨hi.setStoring (.inl (hm ▸ cons_ne_nil _ _)) _ (some first.batch)
      (fun r hr => ?_) f.startPart.last, rfl⟩
    rw [hm]
    exact mem_append_right _ hr
  refine (wp_storeL2Block_start hf).seq fun _ f hf => ?_
  refine store_start.act (Q := fun _ _ => True) (stable_stores blk.batch) hf
    fun f a f' hP hi hf => ?_
  cases hf
  refine ⟨hi.setStoring (.inr (hP ▸ Option.some_ne_none _)) f.startPart.toStore none
    (fun r hr => ?_) f.startPart.last, trivial⟩
  exact mem_append_right _ hr
end

/-! ## The process -/

lemma startOutline_valid (cfg : FinalizerCfg) (G : TxTracker → Prop) : startOutline.Valid
    (openNewWIPL2Block cfg) (body cfg G) where
  loop_stable i f f' hloop hrely := by
    cases i with
    | main => exact stable_blockOfWip _ _ hloop hrely
    | process => exact hrely.processBusy.trans hloop
    | _ => trivial
  proc i args _ f hpre := by
    obtain rfl := hpre
    exact wp_openL2Block_start
  body i f hloop := by
    rcases i with _ | _ | _ | _ | _
    · exact wp_finalizeBatches_start hloop
    · exact wp_processL2Blocks_start hloop
    · exact wp_storeL2Blocks_start
    · refine sees_startPart.wp_within (P := fun _ => True) (within_checkForced ?_)
        (fun _ _ h _ => h) trivial
      exact fun _ _ _ => rfl
    refine sees_startPart.wp_within (P := fun _ => True) (Within.mono (within_loadFromPool ?_ cfg
      G) (fun _ _ h => h) fun _ _ => trivial) (fun _ _ h _ => h) trivial
    exact fun _ _ => rfl

lemma holds_startProcess_start (cfg : FinalizerCfg) (state : List StateBatch) : startOutline.Holds
    (startProcess cfg state) where
  inv := by
    exact ⟨.nil, nofun, nofun, nofun, nofun, nofun, nofun, nofun, nofun, nofun, fun _ => rfl⟩
  wp i := by
    cases i with
    | main => exact wp_start_start ⟨⟨rfl, rfl⟩, rfl, rfl⟩
    | process => exact rfl
    | _ => trivial

/-- The batch `b` at `r` comes after forced batches: the last batch of the state is not the one that
was in progress before. -/
structure AfterForced (f : Finalizer) (r : BatchRef) (b : HeapBatch) (row : StateBatch) :
    Prop where
  batch : f.batches[r]? = some b
  last : f.state.head? = some row
  number : b.batchNumber = row.batchNumber + 1
  previous : ∀ q b', r = q + 1 → f.batches[q]? = some b' → b'.batchNumber + 1 ≠ b.batchNumber

/-- The first L2 block of the batch `r` is about to be processed. -/
structure FirstBlock (f : Finalizer) (r : BatchRef) : Prop where
  processing : ∃ block, f.processing = some block ∧ block.batch = some r
  unstarted : r ∉ startedBatches f.trace

def initialStateRoot? (f : Finalizer) (r : BatchRef) : Option Hash :=
  f.batches[r]?.map fun b => b.initialStateRoot

def PipEndsWith (f : Finalizer) (r : BatchRef) (root : Hash) : Prop :=
  ∀ p pip, f.pipBatch = some p → p ≠ r → f.batches[p]? = some pip → pip.finalStateRoot = root

lemma initialStateRoot?_of_batch (hb : f.batches[r]? = some b) :
    f.initialStateRoot? r = some b.initialStateRoot := by
  rw [initialStateRoot?, hb]
  rfl

/-- A batch after forced batches has the root of the last one until its first L2 block is
processed. -/
lemma AfterForced.roots_eq {row : StateBatch} (hi : f.startPart.Inv) (hf : f.FirstBlock r)
    (h : f.AfterForced r b row) :
    b.initialStateRoot = row.stateRoot ∧ b.finalStateRoot = row.stateRoot := by
  obtain ⟨blk, hp, hb⟩ := hf.processing
  have hh : f.startPart.refs.head? = some r := by
    refine StartPart.head?_refs ?_
    rw [startPart, hp, ← hb]
    rfl
  rcases hi.rooted r hh hf.unstarted with ⟨q, n, hr, hq, hn⟩ | ho
  · -- the batch before would be the one in progress before
    rw [StartPart.numbers, startPart, map_map, getElem?_map] at hq hn
    rw [h.batch] at hn
    obtain ⟨b', hb', rfl⟩ := Option.map_eq_some_iff.mp hq
    exact absurd (Option.some.inj hn).symm (h.previous q b' hr hb')
  obtain ⟨b', row', hb', hw, hc⟩ := ho.last
  obtain rfl := Option.mem_unique (startPart_batches h.batch) hb'
  rw [startPart, h.last] at hw
  cases hw
  rcases hc with hm | ht
  · have hs : row.batchNumber + 1 = row.batchNumber := h.number.symm.trans hm
    simp at hs
  · exact ⟨congrArg BatchRoots.initial ht, congrArg BatchRoots.final ht⟩

lemma startBlock_of_propagate {g : Finalizer} {p : BatchRef} {pip : HeapBatch}
    (hb : f.batches[r]? = some b) (hg : f.propagate r b = .ok g) (hp : g.pipBatch = some p)
    (hpp : g.batches[p]? = some pip) : f.startBlock r = .ok (pip.finalStateRoot, g) := by
  have ha : f.batchAt (some r) = .ok (r, b) := batchAt_ok_iff.mpr ⟨rfl, hb⟩
  have hap : g.batchAt g.pipBatch = .ok (p, pip) := batchAt_ok_iff.mpr ⟨hp, hpp⟩
  refine except_bind_ok_iff.mpr ⟨(r, b), ha, ?_⟩
  refine except_bind_ok_iff.mpr ⟨g, hg, ?_⟩
  exact except_bind_ok_iff.mpr ⟨(p, pip), hap, rfl⟩

lemma startBlock_returns (hi : f.startPart.Inv) (hb : f.batches[r]? = some b) :
    ∃ root f', f.startBlock r = .ok (root, f') := by
  rcases hpp : f.pipBatch with _ | p
  · have hg : f.propagate r b = .ok { f with pipBatch := some r } := by rw [propagate, hpp]
    exact ⟨_, _, startBlock_of_propagate hb hg rfl hb⟩
  have hp : p < f.batches.length := by
    have hl := hi.pipBound p hpp
    rwa [startPart, length_map] at hl
  obtain ⟨pip, ha⟩ : ∃ pip, f.batches[p]? = some pip := ⟨_, getElem?_eq_getElem hp⟩
  have hap : f.batchAt (some p) = .ok (p, pip) := batchAt_ok_iff.mpr ⟨rfl, ha⟩
  by_cases hn : pip.batchNumber ≠ b.batchNumber
  · have hg : f.propagate r b = .ok { f.setBatch r { b with
          initialStateRoot := pip.finalStateRoot
          finalStateRoot := pip.finalStateRoot } with
        pipBatch := some r
        trace := f.trace ++ [.propagated p r pip.finalStateRoot] } := by
      rw [propagate, hpp]
      exact except_bind_ok_iff.mpr ⟨(p, pip), hap, if_pos hn⟩
    have hr := (List.getElem?_eq_some_iff.mp hb).1
    exact ⟨_, _, startBlock_of_propagate hb hg rfl (List.getElem?_set_self hr)⟩
  · have hg : f.propagate r b = .ok f := by
      rw [propagate, hpp]
      exact except_bind_ok_iff.mpr ⟨(p, pip), hap, if_neg hn⟩
    exact ⟨_, _, startBlock_of_propagate hb hg hpp ha⟩

lemma startBlock_iff_pipEndsWith {root start : Hash} (hb : f.batches[r]? = some b)
    (hin : b.initialStateRoot = start) (hn : b.finalStateRoot = start)
    (h : f.startBlock r = .ok (root, f')) :
    (root = start ∧ f'.initialStateRoot? r = some start) ↔ f.PipEndsWith r start := by
  obtain ⟨b', p, pip, hb', hpr, hp, ha, rfl⟩ := startBlock_ok h
  obtain rfl := Option.mem_unique hb hb'
  rcases propagate_ok hpr with ⟨hpp, rfl⟩ | ⟨q, pip', hpp, hq, hf⟩
  · cases hp
    obtain rfl := Option.mem_unique hb ha
    refine iff_of_true ⟨hn, (initialStateRoot?_of_batch hb).trans ?_⟩ fun p _ hp => ?_
    · rw [hin]
    · exact absurd (hpp.symm.trans hp) nofun
  rcases hf with ⟨-, rfl⟩ | ⟨hne, rfl⟩
  · obtain rfl := Option.mem_unique hpp hp
    obtain rfl := Option.mem_unique hq ha
    constructor
    · rintro ⟨ht, -⟩ p' pip' hp' - hi
      obtain rfl := Option.mem_unique hpp hp'
      obtain rfl := Option.mem_unique ha hi
      exact ht
    intro he
    refine ⟨?_, (initialStateRoot?_of_batch hb).trans (hin ▸ rfl)⟩
    by_cases hqr : q = r
    · obtain rfl := hqr
      obtain rfl := Option.mem_unique hb ha
      exact hn
    · exact he q _ hpp hqr ha
  cases hp
  have hr := (List.getElem?_eq_some_iff.mp hb).1
  rw [setBatch] at ha
  obtain rfl := Option.mem_unique (getElem?_set_self hr) ha
  have hit := initialStateRoot?_of_batch ha
  constructor
  · rintro ⟨ht, -⟩ p' pp' hp' - hi
    obtain rfl := Option.mem_unique hpp hp'
    obtain rfl := Option.mem_unique hq hi
    exact ht
  intro he
  have ht : pip'.finalStateRoot = start := by
    refine he q pip' hpp (fun hqr => hne ?_) hq
    obtain rfl := hqr
    rw [Option.mem_unique hq hb]
  exact ⟨ht, hit.trans (ht ▸ rfl)⟩

lemma keeps_of_guarantee {i : Goroutine} (h : startOutline.Guarantee i f f') :
    f.startPart.Keeps f'.startPart := by
  by_cases hi : i = .forced
  · exact h .pool (hi ▸ nofun)
  · exact h .forced (Ne.symm hi)

/-- The first L2 block of a batch after forced batches is executed from the root of the last one,
which becomes its initial root, exactly if the batch in process ends with that root. Only
`processL2Block` changes the initial root, before the batch is stored. -/
theorem startBlock_afterForced_iff_pipEndsWith {cfg : FinalizerCfg} {G : TxTracker → Prop}
    {state : List StateBatch} {c : Process Finalizer NewL2BlockArgs Fault Goroutine}
    (h : Reaches cfg G (fun _ _ => True) state c) :
    (∀ r b row, c.shared.FirstBlock r → c.shared.AfterForced r b row →
    ∃ root f', c.shared.startBlock r = .ok (root, f') ∧
    ((root = row.stateRoot ∧ f'.initialStateRoot? r = some row.stateRoot) ↔
    c.shared.PipEndsWith r row.stateRoot)) ∧
    (∀ s r, c.shared.storing = some s → s.block.batch = some r →
    r ∈ startedBatches c.shared.trace) ∧
    ∀ c', Process.Reaches (openNewWIPL2Block cfg) (body cfg G) (fun _ _ => True)
    (fun d => d = c) c' →
    ∀ r root, c.shared.initialStateRoot? r = some root →
    ∃ root', c'.shared.initialStateRoot? r = some root' ∧
    (root' = root ∨ r ∉ startedBatches c.shared.trace ∧
    (r, root') ∈ propagatedRoots c'.shared.trace) := by
  have hv := startOutline_valid cfg G
  have hh : startOutline.Holds c := hv.sound (fun c hc => by
    rw [hc]
    exact holds_startProcess_start cfg state) h
  have hin : c.shared.startPart.Inv := hh.inv
  refine ⟨fun r b row hfs haf => ?_, fun s r hs hr => ?_, fun c' hc' r root hro => ?_⟩
  · obtain ⟨hit, hfn⟩ := haf.roots_eq hin hfs
    obtain ⟨root, f', hst⟩ := startBlock_returns hin haf.batch
    exact ⟨root, f', hst, startBlock_iff_pipEndsWith haf.batch hit hfn hst⟩
  · refine hin.stored r (mem_append_left _ ?_)
    rw [startPart, hs, ← hr]
    exact mem_cons_self
  have : Nonempty Goroutine := ⟨.main⟩
  have hk : c.shared.startPart.Keeps c'.shared.startPart :=
    hv.keeps (K := fun f f' => f.startPart.Keeps f'.startPart)
      (fun _ => .of_eq rfl rfl rfl) (fun _ _ _ => StartPart.Keeps.trans)
      (fun _ _ _ => keeps_of_guarantee) hh hc'
  obtain ⟨b, hb, rfl⟩ := Option.map_eq_some_iff.mp hro
  obtain ⟨roots, hrt, hcs⟩ := hk.initial r b.roots (startPart_batches hb)
  rw [startPart, getElem?_map] at hrt
  obtain ⟨b', hb', rfl⟩ := Option.map_eq_some_iff.mp hrt
  exact ⟨b'.initialStateRoot, initialStateRoot?_of_batch hb', hcs⟩

lemma afterForced_of_numbers {row : StateBatch}
    (hu : (f.batches.map fun b => b.batchNumber) = [2, 4]) (hl : f.state.head? = some row)
    (hr : row.batchNumber = 3) : ∃ b, f.AfterForced 1 b row := by
  have ha : ∀ i : ℕ, (f.batches[i]?.map fun b => b.batchNumber) = [2, 4][i]? := fun i => by
    rw [← hu, getElem?_map]
  obtain ⟨b, hb, hn⟩ := Option.map_eq_some_iff.mp (ha 1)
  refine ⟨b, hb, hl, ?_, fun q b' hq hb' => ?_⟩
  · rw [hn, hr]
    rfl
  obtain rfl : q = 0 := Nat.succ.inj hq.symm
  have hnum' := ha 0
  rw [hb'] at hnum'
  have hf : b'.batchNumber = 2 := Option.some.inj hnum'
  rw [hn, hf]
  decide

open Evolves renaming act → go, answer → hears

/-- After an L2 block that is executed with the root `newRoot` a forced batch ends with `root`. The
first block of the next batch is executed from `newRoot`. -/
def StartsAfterForced (root : Hash) : Prop :=
  ∃ c row f', Reaches plainCfg PlainTx (fun _ _ => True) plainBatches c ∧ c.shared.FirstBlock 1 ∧
    (c.shared.batches.map fun b => b.batchNumber) = [2, 4] ∧ c.shared.state.head? = some row ∧
    row.batchNumber = 3 ∧ row.stateRoot = root ∧
    c.shared.pipBatch.map (fun p => c.shared.batches[p]?.map (·.finalStateRoot)) =
      some (some newRoot) ∧
    c.shared.startBlock 1 = .ok (newRoot, f') ∧ f'.initialStateRoot? 1 = some newRoot

lemma startsAfterForced : StartsAfterForced zeroHash ∧ StartsAfterForced newRoot := by
  have hsr := (plainGoing_start fun _ _ => True).evolve .main rfl (by
    iterate 2 apply go rfl
    apply hears (some 0)
    apply Evolves.call
    apply hears ⟨0, 0, false⟩
    iterate 2 apply go rfl
    apply hears (some (plainResponse 0))
    iterate 3 apply go rfl
    exact .refl _ _)
  have hfr := hsr.evolveBody .forced rfl (by
    apply hears 1
    apply go rfl
    exact .refl _ _)
  -- the deadline of the forced batch ends the batch
  have hcl := hfr.evolveBody .main rfl (by
    apply go rfl
    apply hears false
    apply go rfl
    apply hears 1
    apply hears [0, 0]
    iterate 4 apply go rfl
    apply hears true
    apply hears false
    iterate 8 apply go rfl
    apply hears false
    apply go rfl
    exact .refl _ _)
  have hp := hcl.evolveBody .process rfl (by
    iterate 4 apply go rfl
    apply hears (some { plainResponse 0 with newStateRoot := newRoot })
    iterate 5 apply go rfl
    exact .refl _ _)
  have hst := hp.evolveBody .store rfl (by
    iterate 5 apply go rfl
    apply hears false
    apply go rfl
    apply hears false
    apply go rfl
    exact .refl _ _)
  constructor
  · have ho := hst.evolve .main rfl (by
      iterate 3 apply go rfl
      apply hears .committed
      iterate 6 apply go rfl
      apply hears (some 0)
      apply go rfl
      apply hears ⟨[], [], some zeroHash⟩
      iterate 3 apply go rfl
      apply hears (some 0)
      apply Evolves.call
      apply hears ⟨0, 0, false⟩
      iterate 2 apply go rfl
      apply hears (some (plainResponse 0))
      iterate 3 apply go rfl
      exact .refl _ _)
    have hsn := ho.evolveBody .main rfl (by
      apply go rfl
      apply hears true
      iterate 6 apply go rfl
      exact .refl _ _)
    have ht := hsn.evolveBody .process rfl (by
      apply go rfl
      exact .refl _ _)
    refine ⟨_, _, _, ht.reaches, ⟨⟨_, rfl, rfl⟩, ?_⟩, rfl, rfl, rfl, rfl, rfl, rfl, rfl⟩
    show 1 ∉ [0]
    decide
  have ho := hst.evolve .main rfl (by
    iterate 3 apply go rfl
    apply hears .committed
    iterate 6 apply go rfl
    apply hears (some 0)
    apply go rfl
    apply hears ⟨[], [], some newRoot⟩
    iterate 3 apply go rfl
    apply hears (some 0)
    apply Evolves.call
    apply hears ⟨0, 0, false⟩
    iterate 2 apply go rfl
    apply hears (some (plainResponse 0))
    iterate 3 apply go rfl
    exact .refl _ _)
  have hsn := ho.evolveBody .main rfl (by
    apply go rfl
    apply hears true
    iterate 6 apply go rfl
    exact .refl _ _)
  have ht := hsn.evolveBody .process rfl (by
    apply go rfl
    exact .refl _ _)
  refine ⟨_, _, _, ht.reaches, ⟨⟨_, rfl, rfl⟩, ?_⟩, rfl, rfl, rfl, rfl, rfl, rfl, rfl⟩
  show 1 ∉ [0]
  decide

theorem startBlock_loses_forcedRoot : ∃ c r b row root f', Reaches plainCfg PlainTx
    (fun _ _ => True) plainBatches c ∧ c.shared.FirstBlock r ∧ c.shared.AfterForced r b row ∧
    c.shared.startBlock r = .ok (root, f') ∧ root ≠ row.stateRoot ∧ f'.initialStateRoot? r ≠ some
    row.stateRoot := by
  obtain ⟨c, row, f', hc, hfs, hnu, hl, hnm, hr, -, hstart, hi⟩ := startsAfterForced.1
  obtain ⟨b, haf⟩ := afterForced_of_numbers hnu hl hnm
  have hne : newRoot ≠ row.stateRoot := by
    rw [hr]
    decide
  refine ⟨c, 1, b, row, newRoot, f', hc, hfs, haf, hstart, hne, ?_⟩
  rw [hi]
  exact fun h => hne (Option.some.inj h)

/-- The forced batch has left the root as it was. -/
theorem startBlock_afterForced_iff_pipEndsWith_sameRoot : ∃ c b row root f',
    Reaches plainCfg PlainTx (fun _ _ => True) plainBatches c ∧ c.shared.FirstBlock 1 ∧
    c.shared.AfterForced 1 b row ∧ c.shared.pipBatch ≠ none ∧
    c.shared.startBlock 1 = .ok (root, f') ∧ root = row.stateRoot ∧
    f'.initialStateRoot? 1 = some row.stateRoot := by
  obtain ⟨c, row, -, hc, hfs, hnu, hl, hnm, hr, hpip, -⟩ := startsAfterForced.2
  obtain ⟨b, haf⟩ := afterForced_of_numbers hnu hl hnm
  obtain ⟨root, f', hst, hif⟩ := (startBlock_afterForced_iff_pipEndsWith hc).1 1 b row hfs haf
  have hends : c.shared.PipEndsWith 1 row.stateRoot := by
    intro p pip hp _ hb
    simpa [hp, hb, hr] using hpip
  obtain ⟨hroot, hinitial⟩ := hif.mpr hends
  refine ⟨c, b, row, root, f', hc, hfs, haf, fun hn => ?_, hst, hroot, hinitial⟩
  rw [hn] at hpip
  cases hpip

end Finalizer

end EthdaNode.Sequencer
