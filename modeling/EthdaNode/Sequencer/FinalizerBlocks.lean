import EthdaNode.Sequencer.FinalizerFrames
import EthdaNode.Sequencer.WorkerRuns

/-!
# The L2 blocks of the finalizer and their batches

Every L2 block that is sent to be processed belongs to the batch that counted it, as
long as `closeAndOpenNewWIPBatch` finds forced batches only if the L2 block in progress
is there and has its batch. Otherwise `closeWIPL2Block` runs without a block, or the
block has no batch.
-/

namespace EthdaNode.Sequencer

open Go Go.Code Go.Outline List

/-! ## Counting blocks -/

/-- The blocks of every batch are counted: those it was loaded with, those sent, and the one being
closed. -/
structure BlocksCounted (batches : List (UInt64 × ℕ × ℕ)) (closing : Option BatchRef)
    (sent : List Sent) : Prop where
  batch_eq : ∀ e ∈ sent, ∃ r, r < batches.length ∧ e.counted = some r ∧ e.batch = some r
  closing_lt : ∀ r, closing = some r → r < batches.length
  count : ∀ r n c l, batches[r]? = some (n, c, l) →
    c = l + sent.countP (fun e => e.batch = some r) + if closing = some r then 1 else 0

namespace BlocksCounted

variable {bs : List (UInt64 × ℕ × ℕ)} {closing : Option BatchRef} {sent : List Sent}
  {r : BatchRef} {n : UInt64} {c l : ℕ}

lemma nil : BlocksCounted [] none [] where
  batch_eq e he := by cases he
  closing_lt r hr := by cases hr
  count r n c l h := by cases h

section
variable (h : BlocksCounted bs closing sent)
include h

lemma countUp (hl : closing = none) (hr : bs[r]? = some (n, c, l)) : BlocksCounted
    (bs.set r (n, c + 1, l)) (some r) sent where
  batch_eq e he := by
    obtain ⟨q, hq, hn, hb⟩ := h.batch_eq e he
    exact ⟨q, by rwa [length_set], hn, hb⟩
  closing_lt q hq := by
    cases hq
    rw [length_set]
    exact (List.getElem?_eq_some_iff.mp hr).1
  count q n' c' l' hq := by
    by_cases hqr : r = q
    · subst hqr
      have ht := (List.getElem?_eq_some_iff.mp hr).1
      rw [List.getElem?_set_self ht] at hq
      obtain ⟨rfl, rfl, rfl⟩ := Prod.mk.injEq .. ▸ Option.some.inj hq
      have hc := h.count r _ _ _ hr
      rw [hl, if_neg nofun] at hc
      rw [if_pos rfl]
      omega
    · rw [getElem?_set_ne hqr] at hq
      rw [if_neg fun heq => hqr (Option.some.inj heq)]
      have hc := h.count q _ _ _ hq
      rwa [hl, if_neg nofun] at hc

lemma send (hl : closing = some r) {e : Sent} (hn : e.counted = some r) (hb : e.batch = some r) :
    BlocksCounted bs none (sent ++ [e]) where
  batch_eq e' he := by
    rcases mem_append.mp he with he | he
    · exact h.batch_eq e' he
    · obtain rfl := mem_singleton.mp he
      exact ⟨r, h.closing_lt r hl, hn, hb⟩
  closing_lt q hq := by cases hq
  count q n c l hq := by
    have hc := h.count q n c l hq
    rw [countP_append, countP_singleton]
    simp only [hl, hb, decide_eq_true_eq, reduceCtorEq, if_false] at hc ⊢
    omega

lemma append : BlocksCounted (bs ++ [(n, l, l)]) closing sent where
  batch_eq e he := by
    obtain ⟨q, hq, hc, hb⟩ := h.batch_eq e he
    refine ⟨q, ?_, hc, hb⟩
    rw [length_append]
    exact Nat.lt_add_right _ hq
  closing_lt q hq := by
    rw [length_append]
    exact Nat.lt_add_right _ (h.closing_lt q hq)
  count q n' c' l' hq := by
    rw [getElem?_append] at hq
    split_ifs at hq with hl
    · exact h.count q n' c' l' hq
    obtain ⟨rfl, rfl, rfl⟩ := Prod.mk.injEq .. ▸ mem_singleton.mp (mem_of_getElem? hq)
    have hn : sent.countP (fun e => e.batch = some q) = 0 := by
      refine countP_eq_zero.mpr fun e he hb => ?_
      obtain ⟨r, hr, -, hr'⟩ := h.batch_eq e he
      rw [decide_eq_true_eq, hr'] at hb
      exact hl (Option.some.inj hb ▸ hr)
    rw [hn, if_neg fun heq => hl (h.closing_lt q heq)]
    rfl
end

end BlocksCounted

/-! ## The outline -/

structure BlockPart where
  batches : List (UInt64 × ℕ × ℕ)
  wipBatch : Option BatchRef
  block : Option (Option BatchRef)
  closing : Option BatchRef
  closings : ℕ
  sent : List Sent

namespace BlockPart

variable (p : BlockPart)

/-- There is no block being closed, and the L2 block in progress has its batch. -/
def Owned : Prop := p.closing = none ∧ ∃ r, p.wipBatch = some r ∧ p.block = some (some r)

/-- As `Owned`, or there is no L2 block in progress. -/
def Ready : Prop :=
  p.closing = none ∧ ∃ r, p.wipBatch = some r ∧ (p.block = none ∨ p.block = some (some r))

/-- The L2 block in progress has no other batch than the one in progress. -/
def Clean : Prop := p.closing = none ∧ ∀ r, p.block = some (some r) → p.wipBatch = some r

lemma Owned.ready {p : BlockPart} (h : p.Owned) : p.Ready := by
  obtain ⟨hc, r, hw, hb⟩ := h
  exact ⟨hc, r, hw, .inr hb⟩

lemma Owned.clean {p : BlockPart} (h : p.Owned) : p.Clean := by
  obtain ⟨hc, r, hw, hb⟩ := h
  refine ⟨hc, fun q hq => ?_⟩
  cases Option.mem_unique hb hq
  exact hw

end BlockPart

namespace Finalizer

def blockPart (f : Finalizer) : BlockPart :=
  ⟨f.batches.map HeapBatch.mainPart, f.wipBatch, f.wipL2Block.map PendingL2Block.batch,
    f.closing, f.closings, f.sent⟩

structure SameBlocks (f f' : Finalizer) : Prop where
  eq : f'.blockPart = f.blockPart

variable {f' f : Finalizer}

lemma SameMain.sameBlocks (h : SameMain f f') : SameBlocks f f' :=
  ⟨congrArg (fun p : MainPart => (⟨p.batches, p.wipBatch,
    p.wipL2Block.map PendingL2Block.batch, p.closing, p.closings, p.sent⟩ : BlockPart)) h.eq⟩

lemma Still.sameBlocks (h : Still f f') : SameBlocks f f' := h.sameMain.sameBlocks

lemma blockPart_unfilled (f : Finalizer) : f.unfilled.blockPart = f.blockPart := by
  simp only [blockPart, unfilled, still, map_map, Option.map_map]
  rfl

lemma SameUnfilled.sameBlocks (h : SameUnfilled f f') : SameBlocks f f' := by
  refine ⟨?_⟩
  rw [← blockPart_unfilled f, ← blockPart_unfilled f', h.eq]

lemma blockPart_unclosed (f : Finalizer) : f.unclosed.blockPart = f.blockPart := by
  simp only [blockPart, unclosed, still, map_map]
  rfl

lemma SameUnclosed.sameBlocks (h : SameUnclosed f f') : SameBlocks f f' := by
  refine ⟨?_⟩
  rw [← blockPart_unclosed f, ← blockPart_unclosed f', h.eq]

/-- If `closeAndOpenNewWIPBatch` finds forced batches, the L2 block in progress is there and has its
batch. -/
def ForcedWithL2Block (f f' : Finalizer) : Prop :=
  f'.closings ≠ f.closings → f.nextForcedBatches ≠ [] →
    ∃ block r, f.wipL2Block = some block ∧ block.batch = some r

/-- The main loop iterates with an L2 block in progress that has its batch, and the others leave the
blocks. -/
def blocksOutline : Outline Finalizer NewL2BlockArgs Fault Goroutine Unit where
  allowed := ForcedWithL2Block
  inv f := BlocksCounted f.blockPart.batches f.blockPart.closing f.blockPart.sent
  rely i f f' := i = .main → SameBlocks f f'
  rely_refl _ _ _ := ⟨rfl⟩
  rely_trans _ _ _ _ h h' hi := ⟨(h' hi).eq.trans (h hi).eq⟩
  loop i f := i = .main → f.blockPart.Owned
  pre i _ _ f := i = .main ∧ f.blockPart.closing = none
  post _ _ _ f := f.blockPart.Owned
  expected := OtherFault

lemma guarantee_main (f f' : Finalizer) : blocksOutline.Guarantee .main f f' :=
  fun _ hj hm => absurd hm hj

abbrev LeavesBlocks {α : Type} (code : Run α) : Prop := code.Within SameBlocks OtherFault

variable {α : Type} {code : Run α}

lemma Stays.leaves (h : Stays code) : LeavesBlocks code :=
  h.mono (fun _ _ => Still.sameBlocks) fun _ hf => hf

lemma leaves_of_unclosed (h : code.Within SameUnclosed OtherFault) : LeavesBlocks code :=
  h.mono (fun _ _ => SameUnclosed.sameBlocks) fun _ hf => hf

lemma leaves_of_unfilled (h : code.Within SameUnfilled OtherFault) : LeavesBlocks code :=
  h.mono (fun _ _ => SameUnfilled.sameBlocks) fun _ hf => hf

lemma wp_leaves (hc : LeavesBlocks code) {P : BlockPart → Prop} (h : P f.blockPart) :
    blocksOutline.Wp .main (fun _ f => P f.blockPart) code f := by
  refine wp_of_within hc (fun f f' hs hi => ?_) (fun f f' hP hr => ?_) (fun f f' hP _ hs => ?_) h
  · refine ⟨?_, guarantee_main f f'⟩
    simp only [blocksOutline, hs.eq]
    exact hi
  · rw [(hr rfl).eq]
    exact hP
  · rw [hs.eq]
    exact hP

lemma wp_halt {Q : α → Finalizer → Prop} (f : Finalizer) : blocksOutline.Wp .main Q halt f := by
  refine (wp_leaves (P := fun _ => True) ?_ trivial).seq fun _ _ _ => trivial
  exact within_modify fun _ => ⟨rfl⟩

lemma leaves_lastBatch (fb : Bool) (last : UInt64) (root : Hash) :
    LeavesBlocks (lastBatch fb last root) := by
  refine within_lastBatch (fun _ _ _ _ => ⟨rfl⟩) (within_processForcedBatch (fun _ => ?_)
    (fun _ => ?_) fun _ _ => ⟨rfl⟩) fb last root
  · exact leaves_of_unfilled (unfilled_callWorker _)
  · exact leaves_of_unfilled (unfilled_callWorker _)

variable (cfg : FinalizerCfg)

lemma leaves_restoreTxs : LeavesBlocks (restoreTxsPendingToStore cfg) := by
  refine (within_ask _).bind fun visits => ?_
  refine (within_ask _).bind fun state => ?_
  exact within_workerWhen fun _ _ _ => ⟨rfl⟩

/-! ## The main loop -/

section
variable {cfg : FinalizerCfg} {f : Finalizer}

lemma blockPart_eq_some {x : Option BatchRef} :
    f.blockPart.block = some x ↔ ∃ blk, f.wipL2Block = some blk ∧ blk.batch = x :=
  Option.map_eq_some_iff

variable {P : BlockPart → Prop}

lemma wp_lookBlocks {g : Finalizer → Except Fault α} (h : P f.blockPart)
    (hl : ∀ f fault, P f.blockPart → g f = .error fault → OtherFault fault) :
    blocksOutline.Wp .main (fun a f => P f.blockPart ∧ g f = .ok a) (.look g) f := by
  refine wp_look (fun f' hr _ fault hf => ?_) fun f' a hr _ hf => ⟨?_, hf⟩
  · exact hl f' fault ((hr rfl).eq ▸ h) hf
  · exact (hr rfl).eq ▸ h

lemma wp_actBlocks {ready : Finalizer → Bool} {g : Finalizer → Except Fault (α × Finalizer)}
    {Q : α → BlockPart → Prop} (h : P f.blockPart) (hl : ∀ f fault, P f.blockPart →
    g f = .error fault → OtherFault fault) (hg : ∀ f a f', P f.blockPart → blocksOutline.inv f →
    g f = .ok (a, f') → ForcedWithL2Block f f' → blocksOutline.inv f' ∧ Q a f'.blockPart) :
    blocksOutline.Wp .main (fun a f => Q a f.blockPart) (.action ready g .ret) f := by
  refine wp_action (fun f' hr _ _ fault hf => ?_) fun f' a f'' hr hi _ hf ha => ?_
  · exact hl f' fault ((hr rfl).eq ▸ h) hf
  · obtain ⟨hn, hQ⟩ := hg f' a f'' ((hr rfl).eq ▸ h) hi hf ha
    exact ⟨hn, guarantee_main f' f'', hQ⟩

lemma wp_modifyBlocks {g : Finalizer → Finalizer} {Q : BlockPart → Prop} (h : P f.blockPart)
    (hg : ∀ f, P f.blockPart → blocksOutline.inv f → blocksOutline.inv (g f) ∧ Q (g f).blockPart) :
    blocksOutline.Wp .main (fun _ f => Q f.blockPart) (.modify g) f := by
  refine wp_modify fun f' hr hi _ => ?_
  obtain ⟨hn, hQ⟩ := hg f' ((hr rfl).eq ▸ h) hi
  exact ⟨hn, guarantee_main _ _, hQ⟩

lemma wp_addToProcess {blk : PendingL2Block} {r : BatchRef} (hb : blk.batch = some r)
    (h : f.blockPart.closing = some r ∧ f.blockPart.wipBatch = some r) :
    blocksOutline.Wp .main (fun _ f => f.blockPart.closing = none ∧ f.blockPart.wipBatch = some r)
    (addPendingL2BlockToProcess blk) f := by
  refine wp_modifyBlocks (P := fun p => p.closing = some r ∧ p.wipBatch = some r)
    (Q := fun p => p.closing = none ∧ p.wipBatch = some r) h fun f hP hi => ?_
  obtain ⟨hc, hw⟩ := hP
  exact ⟨hi.send hc hc hb, rfl, hw⟩

lemma blockPart_batches {r : BatchRef} {b : HeapBatch} (hb : f.batches[r]? = some b) :
    f.blockPart.batches[r]? = some b.mainPart := by
  rw [blockPart, getElem?_map, hb]
  rfl

lemma wp_closeL2Block (h : f.blockPart.Owned) : blocksOutline.Wp .main
    (fun _ f => f.blockPart.Ready ∧ f.blockPart.block = none) closeWIPL2Block f := by
  obtain ⟨hc, r, hw, hbl⟩ := h
  refine (wp_lookBlocks (P := fun p => p.closing = none ∧ p.wipBatch = some r ∧ p.block = some (some
    r)) ⟨hc, hw, hbl⟩ fun f fault hP hf => ?_).seq fun blk f hf => ?_
  · obtain ⟨blk, hbl, -⟩ := blockPart_eq_some.mp hP.2.2
    rw [hbl] at hf
    cases hf
  obtain ⟨⟨hc, hw, hp⟩, hl⟩ := hf
  obtain ⟨blk', hk, ht⟩ := blockPart_eq_some.mp hp
  cases hk.symm.trans (deref_ok_iff.mp hl)
  refine (wp_actBlocks (P := fun p => p.closing = none ∧ p.wipBatch = some r)
    (Q := fun _ p => p.closing = some r ∧ p.wipBatch = some r) ⟨hc, hw⟩
    (fun f fault _ hf => ?_) fun f a f' hP hi hf _ => ?_).seq fun _ f hf => ?_
  · exact error_of_bind hf other_of_batchAt nofun
  · obtain ⟨wip, ha, -, rfl⟩ := bind_pair_inj hf
    obtain ⟨ha, hb⟩ := batchAt_ok_iff.mp ha
    cases ha.symm.trans hP.2
    refine ⟨?_, rfl, hP.2⟩
    have hn := hi.countUp hP.1 (blockPart_batches hb)
    simp only [blocksOutline, blockPart, setBatch, map_set]
    exact hn
  refine (wp_leaves (stays_await _).leaves (P := fun p => p.closing = some r ∧
    p.wipBatch = some r) hf).seq fun _ f hf => ?_
  refine (wp_addToProcess ht hf).seq fun _ f hf => ?_
  refine (wp_leaves (stays_deref other_nilPointer _).leaves (P := fun p =>
    p.closing = none ∧ p.wipBatch = some r) hf).seq fun _ f hf => ?_
  refine wp_ask fun sync => ?_
  refine (wp_leaves (within_when stays_syncStateRoot.leaves) (P := fun p =>
    p.closing = none ∧ p.wipBatch = some r) hf).seq fun _ f hf => ?_
  refine wp_modifyBlocks (P := fun p => p.closing = none ∧ p.wipBatch = some r)
    (Q := fun p => p.Ready ∧ p.block = none) hf fun f hP hi => ?_
  exact ⟨hi, ⟨hP.1, r, hP.2, .inl rfl⟩, rfl⟩

lemma wp_closeForNextBatch {fb : Bool} (h : f.blockPart.closing = none ∧ (fb = true →
    f.blockPart.Owned)) : blocksOutline.Wp .main (fun _ f => f.blockPart.closing = none ∧
    (fb = true → f.blockPart.block = none)) (closeForNextBatch cfg fb) f := by
  rcases fb with _ | _
  · refine (wp_leaves (stays_lookBatch _).leaves (P := fun p => p.closing = none)
      h.1).seq fun wip f hf => ?_
    exact ⟨hf, fun hr => nomatch hr⟩
  refine (wp_closeL2Block (h.2 rfl)).seq fun _ f hf => ?_
  refine (wp_leaves stays_waitL2Blocks.leaves (P := fun p => p.closing = none ∧
    p.block = none) ⟨hf.1.1, hf.2⟩).seq fun _ f hf => ?_
  refine (wp_leaves (stays_lookBatch _).leaves (P := fun p => p.closing = none ∧
    p.block = none) hf).seq fun sip f hf => ?_
  refine (wp_leaves (leaves_of_unclosed (unclosed_finalizeSIP cfg)) (P := fun p =>
    p.closing = none ∧ p.block = none) hf).seq fun closed f hf => ?_
  refine (wp_leaves (within_when stays_fatal.leaves) (P := fun p => p.closing = none ∧
    p.block = none) hf).seq fun _ f hf => ?_
  exact ⟨hf.1, fun _ => hf.2⟩

lemma wp_closeWIPBatch (h : P f.blockPart) (hP : ∀ p, P p → P { p with wipBatch := none }) :
    blocksOutline.Wp .main (fun _ f => P f.blockPart) closeWIPBatch f := by
  refine (wp_leaves (stays_lookBatch _).leaves h).seq fun wip f hf => ?_
  split_ifs
  · exact (wp_leaves stays_emptyClosed.leaves hf).seq fun _ f _ => wp_halt f
  · refine (wp_modifyBlocks (P := P) (Q := P) hf fun f hf hi => ?_).seq fun _ f hf => hf
    exact ⟨hi, hP _ hf⟩

lemma counted_openBatch (num : UInt64) (root : Hash) (hi : blocksOutline.inv f) :
    blocksOutline.inv (f.openWIPBatch cfg num root) := by
  have ha := hi.append (n := num) (l := 0)
  simp only [blocksOutline, blockPart, openWIPBatch, map_append]
  exact ha

variable {Q : Finalizer → Prop} {args : NewL2BlockArgs}

lemma wp_runOpenBlock (h : f.blockPart.closing = none) (hQ : ∀ f, f.blockPart.Owned → Q f) :
    blocksOutline.Wp .main (fun _ f => Q f) (.run args) f := by
  refine wp_run () (fun f' hr => ⟨rfl, ?_⟩) hQ
  rw [(hr rfl).eq]
  exact h

lemma wp_initL2Block (h : f.blockPart.closing = none) (hQ : ∀ f, f.blockPart.Owned → Q f) :
    blocksOutline.Wp .main (fun _ f => Q f) initWIPL2Block f := by
  refine wp_ask fun ra => ?_
  cases ra with
  | none => exact other_fatal
  | some t => exact wp_runOpenBlock h hQ

lemma wp_carryL2Block (h : f.blockPart.closing = none ∧ ∃ r, f.blockPart.wipBatch = some r) :
    blocksOutline.Wp .main (fun _ f => f.blockPart.Ready) carryL2Block f := by
  refine wp_actBlocks (P := fun p => p.closing = none ∧ ∃ r, p.wipBatch = some r)
    (Q := fun _ p => p.Ready) h (fun f fault _ hf => ?_) fun f a f' hP hi hf _ => ?_
  · cases hl : f.wipL2Block with
    | none =>
      simp only [hl] at hf
      cases hf
    | some blk =>
      simp only [hl] at hf
      refine error_of_bind hf other_of_batchAt fun _ hf => ?_
      split_ifs at hf
      cases hf
      exact other_fatal
  obtain ⟨hc, r, hw⟩ := hP
  rcases hl : f.wipL2Block with _ | blk
  · simp only [hl] at hf
    cases hf
    refine ⟨hi, hc, r, hw, .inl ?_⟩
    rw [blockPart, hl]
    rfl
  simp only [hl] at hf
  obtain ⟨wip, ha, hf⟩ := ok_of_bind hf
  split_ifs at hf
  cases hf
  obtain ⟨ha, hb⟩ := batchAt_ok_iff.mp ha
  obtain rfl := Option.mem_unique ha hw
  refine ⟨?_, hc, _, ha, .inr rfl⟩
  simp only [blocksOutline, blockPart, setBatch]
  rw [map_set_of_eq hb]
  · exact hi
  · rfl

/-- `closeAndOpenNewWIPBatch`, if there are forced batches only together with an L2
block that has its batch. -/
lemma wp_reopenBatch (h : f.blockPart.Clean) :
    blocksOutline.Wp .main (fun _ f => f.blockPart.Ready) (closeAndOpenNewWIPBatch cfg) f := by
  refine (wp_actBlocks (P := BlockPart.Clean) (Q := fun fb p => p.closing = none ∧ (fb = true →
    p.Owned)) h (fun f fault _ hf => ?_) fun f fb f' hP hi hf ha => ?_).seq fun fb f hf => ?_
  · cases hf
  · cases hf
    refine ⟨hi, hP.1, fun hr => ⟨hP.1, ?_⟩⟩
    obtain ⟨blk, r, hl, hb⟩ := ha (Nat.succ_ne_self _) (by
      rintro hn
      rw [hn] at hr
      cases hr)
    have hpr : f.blockPart.block = some (some r) := blockPart_eq_some.mpr ⟨blk, hl, hb⟩
    exact ⟨r, hP.2 r hpr, hpr⟩
  refine (wp_closeForNextBatch hf).seq fun sr f hf => ?_
  refine (wp_closeWIPBatch (P := fun p => p.closing = none ∧ (fb = true →
    p.block = none)) hf fun p hp => hp).seq fun number f hf => ?_
  refine (wp_leaves (within_when (leaves_of_unclosed (unclosed_haltOnBatch cfg))) (P := fun p =>
    p.closing = none ∧ (fb = true → p.block = none)) hf).seq fun _ f hf => ?_
  refine (wp_leaves (leaves_lastBatch _ _ _) (P := fun p => p.closing = none ∧
    (fb = true → p.block = none)) hf).seq fun last f hf => ?_
  refine (wp_modifyBlocks (P := fun p => p.closing = none) (Q := fun p =>
    p.closing = none ∧ ∃ r, p.wipBatch = some r) hf.1 fun f hf hi => ?_).seq
    fun _ f ho => ?_
  · exact ⟨counted_openBatch _ _ hi, hf, _, rfl⟩
  cases fb with
  | false => exact wp_carryL2Block ho
  | true => exact wp_initL2Block ho.1 fun _ => BlockPart.Owned.ready

abbrev EndsOwned {α : Type} (code : Run α) (f : Finalizer) : Prop :=
  blocksOutline.Wp .main (fun _ f => f.blockPart.Owned) code f

lemma wp_placeNewL2Block {resp : ProcessBatchResponse} (h : f.blockPart.closing = none ∧
    f.blockPart.block = some none) : EndsOwned (placeNewL2Block cfg resp) f := by
  refine (wp_actBlocks (P := fun p => p.closing = none ∧ p.block = some none) (Q := fun _ p =>
    p.closing = none ∧ p.block = some none ∧ ∃ r, p.wipBatch = some r) h (fun f fault _ hf =>
    other_of_takeNewL2Block hf) fun f fits f' hP hi hf _ => ?_).seq fun fits f hf => ?_
  · obtain ⟨r, b, b', blk, blk', hw, hb, hs, hl, ht, -, rfl⟩ := takeNewL2Block_ok hf
    have hp : (f.setBatch r b').batches.map HeapBatch.mainPart = f.batches.map HeapBatch.mainPart :=
      congrArg MainPart.batches (still_setBatch hb hs).sameMain.eq
    refine ⟨?_, hP.1, ?_, r, hw⟩
    · simp only [blocksOutline, blockPart, hp]
      exact hi
    obtain ⟨blocks, hblk₀, hn⟩ := blockPart_eq_some.mp hP.2
    obtain rfl := Option.mem_unique hblk₀ hl
    exact congrArg some (ht.trans hn)
  refine (wp_when (Q := fun _ f => f.blockPart.closing = none ∧ ∃ r, f.blockPart.wipBatch = some r)
    (fun _ => ?_) fun _ => ⟨hf.1, hf.2.2⟩).seq fun _ f hf => ?_
  · refine (wp_reopenBatch ⟨hf.1, fun r hr => ?_⟩).mono fun _ f hf => ?_
    · exact absurd (Option.mem_unique hf.2.1 hr) nofun
    · obtain ⟨hc, r, hw, -⟩ := hf
      exact ⟨hc, r, hw⟩
  refine wp_actBlocks (P := fun p => p.closing = none ∧ ∃ r, p.wipBatch = some r)
    (Q := fun _ p => p.Owned) hf (fun f fault _ hf => ?_) fun f a f' hP hi hf _ => ?_
  · exact error_of_bind hf (other_of_deref other_nilPointer) nofun
  obtain ⟨blk, -, -, rfl⟩ := bind_pair_inj hf
  obtain ⟨hc, r, hw⟩ := hP
  exact ⟨hi, hc, r, hw, congrArg some hw⟩

lemma wp_openL2Block (h : f.blockPart.closing = none) :
    EndsOwned (openNewWIPL2Block cfg args) f := by
  refine wp_ask fun inp => ?_
  refine (wp_modifyBlocks (P := fun p => p.closing = none) (Q := fun p =>
    p.closing = none ∧ p.block = some none) h fun f hf hi => ?_).seq fun _ f hf => ?_
  · exact ⟨hi, hf, rfl⟩
  refine (wp_leaves (stays_lookBatch _).leaves (P := fun p => p.closing = none ∧
    p.block = some none) hf).seq fun _ f hf => ?_
  refine wp_ask fun ans => ?_
  rcases ans with _ | res
  · exact wp_halt f
  dsimp only
  split_ifs
  · exact wp_halt f
  · exact wp_placeNewL2Block hf

lemma wp_finalizeL2Block (h : f.blockPart.Owned) : EndsOwned finalizeWIPL2Block f := by
  refine (wp_leaves (stays_deref other_nilPointer _).leaves h).seq fun blk f hf => ?_
  refine (wp_closeL2Block hf).seq fun _ f hf => ?_
  exact wp_runOpenBlock hf.1.1 fun _ hf => hf

lemma wp_finalizeBatch (h : f.blockPart.Owned) : EndsOwned (finalizeWIPBatch cfg) f := by
  refine (wp_leaves (stays_deref other_nilPointer _).leaves h).seq fun blk f hf => ?_
  refine (wp_when (Q := fun _ f => f.blockPart.Clean) (fun _ => ?_) fun _ => hf.clean).seq
    fun _ f hf => ?_
  · refine (wp_closeL2Block hf).mono fun _ f hf => ⟨hf.1.1, fun r hr => ?_⟩
    exact absurd (hf.2.symm.trans hr) nofun
  refine (wp_reopenBatch hf).seq fun _ f hf => ?_
  refine (wp_lookBlocks hf fun f fault _ hl => ?_).seq fun closed f hf => ?_
  · cases hl
  obtain ⟨hd, hc⟩ := hf
  cases hc
  refine wp_when (fun _ => wp_runOpenBlock hd.1 fun _ hf => hf) fun ho => ?_
  obtain ⟨hco, r, hw, hb | hb⟩ := hd
  · rw [Option.map_eq_none_iff.mp hb] at ho
    cases ho
  · exact ⟨hco, r, hw, hb⟩

variable {prevStateBatch wipStateBatch : StateBatch}

lemma fault_of_setWIPBatch {e : Fault}
    (h : setWIPBatch cfg prevStateBatch wipStateBatch = .error e) : e = .fatal := by
  rw [setWIPBatch] at h
  split_ifs at h
  exact (Except.error.inj h).symm

lemma setWIPBatch_count {b : HeapBatch} (h : setWIPBatch cfg prevStateBatch wipStateBatch = .ok b) :
    b.countOfL2Blocks = b.loadedL2Blocks := by
  rw [setWIPBatch] at h
  split_ifs at h
  cases h
  rfl

lemma wp_initBatch (h : f.blockPart.closing = none) :
    blocksOutline.Wp .main (fun _ f => f.blockPart.closing = none) (initWIPBatch cfg) f := by
  refine (wp_leaves (stays_deref other_fatal _).leaves (P := fun p => p.closing = none)
    h).seq fun last f hf => ?_
  split_ifs
  · refine wp_actBlocks (P := fun p => p.closing = none) (Q := fun _ p => p.closing = none)
      hf (fun f fault _ hf => ?_) fun f a f' hP hi hf _ => ?_
    · refine error_of_bind hf (other_of_deref other_fatal) fun _ hf => ?_
      rcases except_bind_error_iff.mp hf with hf | ⟨wip, -, hf⟩
      · rw [fault_of_setWIPBatch hf]
        exact other_fatal
      · cases hf
    obtain ⟨prev, -, hf⟩ := ok_of_bind hf
    obtain ⟨wip, hs, -, rfl⟩ := bind_pair_inj hf
    refine ⟨?_, hP⟩
    have ha := hi.append (n := wip.batchNumber) (l := wip.loadedL2Blocks)
    simp only [blocksOutline, blockPart, map_append, map_singleton,
      HeapBatch.mainPart, setWIPBatch_count hs]
    exact ha
  · exact wp_halt f
  refine wp_modifyBlocks (P := fun p => p.closing = none) (Q := fun p => p.closing = none)
    hf fun f hP hi => ?_
  exact ⟨counted_openBatch _ _ hi, hP⟩

lemma wp_restartBatch (h : f.blockPart.closing = none) : EndsOwned (restartBatch cfg) f := by
  refine (wp_leaves (leaves_restoreTxs cfg) (P := fun p => p.closing = none) h).seq fun _ f hf => ?_
  refine (wp_initBatch hf).seq fun _ f hf => ?_
  refine (wp_initL2Block (Q := fun f => f.blockPart.Owned) hf fun _ hf => hf).seq fun _ f hf => ?_
  refine wp_leaves ?_ hf
  exact within_modify fun _ => ⟨rfl⟩

lemma wp_l2Reorg (h : f.blockPart.Owned) : EndsOwned (processL2BlockReorg cfg) f := by
  refine (wp_leaves stays_waitL2Blocks.leaves h).seq fun _ f hf => ?_
  refine (wp_leaves (leaves_of_unclosed (unclosed_closePrev cfg)) hf).seq fun closed f hf => ?_
  exact wp_when (fun _ => wp_restartBatch hf.1) fun _ => hf

lemma wp_finalizeBatches (h : f.blockPart.Owned) : EndsOwned (finalizeBatches cfg) f := by
  refine mainKeeps_of_unfilled (J := fun f => f.blockPart.Owned) (fun f h => ?_)
    (fun _ => wp_l2Reorg) (fun _ => wp_finalizeL2Block)
    (fun hc _ h => wp_leaves (leaves_of_unfilled hc) h) (fun _ => wp_finalizeBatch) f h
  exact (wp_leaves (stays_lookField _).leaves h).mono fun _ _ h => ⟨h, fun _ => h⟩

lemma wp_start (h : f.blockPart.closing = none) : EndsOwned (start cfg) f := by
  refine (wp_initBatch h).seq fun _ f hf => ?_
  refine (wp_initL2Block (Q := fun f => f.blockPart.Owned) hf fun _ hf => hf).seq fun _ f hf => ?_
  refine wp_leaves ?_ hf
  exact within_modify fun _ => ⟨rfl⟩
end

lemma blocksOutline_valid (G : TxTracker → Prop) : blocksOutline.Valid (openNewWIPL2Block cfg)
    (body cfg G) where
  loop_stable i f f' hloop hrely hi := by
    rw [(hrely hi).eq]
    exact hloop hi
  proc i args x f hpre := by
    obtain ⟨rfl, hc⟩ := hpre
    exact wp_openL2Block hc
  body i f hloop := by
    by_cases hi : i = .main
    · subst hi
      exact (wp_finalizeBatches (hloop rfl)).mono fun _ f hf _ => hf
    refine wp_of_within (spares_body cfg G hi) (fun f f' hs hn => ⟨?_, ?_⟩)
      (fun f f' h _ hm => absurd hm hi) (fun f f' h _ _ hm => absurd hm hi) hloop
    · simp only [blocksOutline, hs.sameBlocks.eq]
      exact hn
    · exact fun _ _ _ => hs.sameBlocks

lemma holds_startProcess (state : List StateBatch) :
    blocksOutline.Holds (startProcess cfg state) where
  inv := BlocksCounted.nil
  wp i := by
    by_cases hi : i = .main
    · subst hi
      exact (wp_start rfl).mono fun _ f hf _ => hf
    cases i with
    | main => exact absurd rfl hi
    | _ => exact fun hm => absurd hm hi

lemma holds_of_forcedWithL2Block {cfg : FinalizerCfg} {G : TxTracker → Prop}
    {state : List StateBatch} {c : Process Finalizer NewL2BlockArgs Fault Goroutine}
    (h : Reaches cfg G ForcedWithL2Block state c) : blocksOutline.Holds c := by
  refine (blocksOutline_valid cfg G).sound (fun c hc => ?_) h
  rw [hc]
  exact holds_startProcess cfg state

/-- If forced batches are found only together with an L2 block that has its batch, `closeWIPL2Block`
has a block to close, every block sent has the batch counted up for it, and every batch counts the
blocks it was loaded with, those sent, and the one being closed. -/
theorem l2Blocks_counted_of_forcedWithL2Block {cfg : FinalizerCfg} {G : TxTracker → Prop}
    {state : List StateBatch} {c : Process Finalizer NewL2BlockArgs Fault Goroutine}
    (h : Reaches cfg G ForcedWithL2Block state c) :
    (∀ i, c.code i ≠ .exit .closeNilL2Block) ∧
    (∀ e ∈ c.shared.sent, ∃ r, e.counted = some r ∧ e.batch = some r) ∧
    ∀ r b, c.shared.batches[r]? = some b → b.countOfL2Blocks = b.loadedL2Blocks +
    c.shared.sent.countP (fun e => e.batch = some r) +
    if c.shared.closing = some r then 1 else 0 := by
  have hh := holds_of_forcedWithL2Block h
  have hi : BlocksCounted c.shared.blockPart.batches c.shared.blockPart.closing
    c.shared.blockPart.sent := hh.inv
  refine ⟨fun i hcd => hh.expected hcd rfl, fun e he => ?_, fun r b hb => ?_⟩
  · obtain ⟨r, -, hcn, hbt⟩ := hi.batch_eq e he
    exact ⟨r, hcn, hbt⟩
  · exact hi.count r _ _ _ (blockPart_batches hb)

def plainCfg : FinalizerCfg where
  batchConstraints := ⟨⟨100, 100, 100, 100, 100, 100, 100, 100, 100⟩, 10, 1000⟩
  haltOnBatchNumber := 0
  resourceExhaustedMarginPct := 0
  validIP _ := true

def plainBatches : List StateBatch := [⟨1, zeroHash, false, [], ⟨zeroCounters, 0⟩, zeroCounters⟩]

def plainResponse (gasUsed : UInt64) : ProcessBatchResponse :=
  ⟨zeroHash, { zeroCounters with gasUsed := gasUsed },
    { zeroCounters with gasUsed := gasUsed }, [⟨0, []⟩]⟩

def plainExecution (tx : TxTracker) : ExecutedTx :=
  ⟨zeroHash, zeroCounters, zeroCounters, tx.hash, ⟨[], by decide⟩, 0, ∅⟩

def PlainTx (tx : TxTracker) : Prop := tx = plainTx 1 0 1 0

variable (allowed : Finalizer → Finalizer → Prop)

abbrev PlainGoing : Process Finalizer NewL2BlockArgs Fault Goroutine → Prop :=
  Process.Going (openNewWIPL2Block plainCfg) (body plainCfg PlainTx) allowed
    fun c => c = startProcess plainCfg plainBatches

lemma plainGoing_start : PlainGoing allowed (startProcess plainCfg plainBatches) := by
  refine ⟨.start rfl, fun i fault => ?_⟩
  cases i with
  | _ => nofun

open Evolves renaming act → go, action → acts, answer → hears

/-- A forced batch arrives after the start. If the batch ends with a transaction in the L2 block,
that block is closed twice; if a new L2 block does not fit, it is sent without a batch. -/
theorem forcedBatch_l2Blocks_not_counted :
    (∃ c, Reaches plainCfg PlainTx (fun _ _ => True) plainBatches c ∧
    c.code .main = .exit .closeNilL2Block) ∧
    ∃ c, Reaches plainCfg PlainTx (fun _ _ => True) plainBatches c ∧
    ⟨some 0, none⟩ ∈ c.shared.sent := by
  have hst := (plainGoing_start fun _ _ => True).evolve .main rfl (by
    iterate 2 apply go rfl
    apply hears (some 0)
    apply Evolves.call
    apply hears ⟨0, 0, false⟩
    iterate 2 apply go rfl
    apply hears (some (plainResponse 0))
    iterate 3 apply go rfl
    exact .refl _ _)
  have hf := hst.evolveBody .forced rfl (by
    apply hears 1
    apply go rfl
    exact .refl _ _)
  constructor
  · have hpl := hf.evolveBody .pool rfl (by
      apply hears ⟨plainTx 1 0 1 0, rfl⟩
      apply hears Worker.plainState
      apply go rfl
      exact .refl _ _)
    have hm := hpl.evolveBody .main rfl (by
      apply go rfl
      apply hears false
      apply go rfl
      apply hears 1
      apply hears [0, 0]
      iterate 2 apply go rfl
      apply hears (.executed (plainExecution (plainTx 1 0 1 0)))
      iterate 6 apply go rfl
      apply hears true
      apply hears false
      iterate 7 apply go rfl
      apply hears false
      iterate 2 apply go rfl
      exact .refl _ _)
    exact ⟨_, hm.reaches.step (.faulted .main hm.alive rfl rfl rfl), rfl⟩
  have hm := hf.evolveBody .main rfl (by
    apply go rfl
    apply hears true
    iterate 7 apply go rfl
    apply hears false
    apply go rfl
    apply Evolves.call
    apply hears ⟨0, 0, false⟩
    iterate 2 apply go rfl
    apply hears (some (plainResponse 101))
    iterate 4 apply go rfl
    exact .refl _ _)
  have hpr := hm.evolveBody .process rfl (by
    iterate 4 apply go rfl
    apply hears none
    iterate 4 apply go rfl
    exact .refl _ _)
  have hsn := hpr.evolve .main rfl (by
    iterate 2 apply go rfl
    exact .refl _ _)
  exact ⟨_, hsn.reaches, mem_of_getElem? (i := 1) rfl⟩

/-- A forced batch is found with the first L2 block, which is closed for it and counted. -/
theorem l2Blocks_counted_of_forcedWithL2Block_found :
    ∃ c, Reaches plainCfg PlainTx ForcedWithL2Block plainBatches c ∧
      c.shared.closings = 1 ∧ c.shared.nextForcedBatches = [1] ∧
      c.shared.sent = [⟨some 0, some 0⟩] ∧
      (c.shared.batches.map fun b => b.countOfL2Blocks) = [1] ∧
      ∀ i, c.code i ≠ .exit .closeNilL2Block := by
  have hs := (plainGoing_start ForcedWithL2Block).evolve .main rfl (by
    iterate 2 apply acts rfl rfl (absurd rfl)
    apply hears (some 0)
    apply Evolves.call
    apply hears ⟨0, 0, false⟩
    iterate 2 apply acts rfl rfl (absurd rfl)
    apply hears (some (plainResponse 0))
    iterate 3 apply acts rfl rfl (absurd rfl)
    exact .refl _ _)
  have hf := hs.evolveBody .forced rfl (by
    apply hears 1
    apply acts rfl rfl (absurd rfl)
    exact .refl _ _)
  -- the deadline of the forced batch ends the batch
  have hm := hf.evolveBody .main rfl (by
    apply acts rfl rfl (absurd rfl)
    apply hears false
    apply acts rfl rfl (absurd rfl)
    apply hears 1
    apply hears [0, 0]
    iterate 4 apply acts rfl rfl (absurd rfl)
    apply hears true
    apply hears false
    iterate 2 apply acts rfl rfl (absurd rfl)
    apply acts rfl rfl fun _ _ => ⟨_, _, rfl, rfl⟩
    iterate 5 apply acts rfl rfl (absurd rfl)
    apply hears false
    apply acts rfl rfl (absurd rfl)
    exact .refl _ _)
  exact ⟨_, hm.reaches, rfl, rfl, rfl, rfl,
    (l2Blocks_counted_of_forcedWithL2Block hm.reaches).1⟩

end Finalizer

end EthdaNode.Sequencer
