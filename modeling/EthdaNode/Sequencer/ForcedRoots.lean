import EthdaNode.Sequencer.FinalizerFrames
import Mathlib.Data.List.ReduceOption

/-!
# The root of the first batch after forced batches

A batch is started when its first L2 block is processed. Until then it has the root with
which it was opened: that of the last batch of the state, if that one is not a batch of
the finalizer. `StartPart.Inv` is the invariant of the finalizer about this.
-/

namespace EthdaNode.Sequencer

open Go List Nat Subset Option

structure BatchRoots where
  number : UInt64
  initial : Hash
  final : Hash

def HeapBatch.roots (b : HeapBatch) : BatchRoots :=
  ⟨b.batchNumber, b.initialStateRoot, b.finalStateRoot⟩

/-- What matters for the start of batches: `last` is the last batch of the state, `started` those
with a processed L2 block, `propagated` those that took over the root of the batch before. -/
structure StartPart where
  batches : List BatchRoots
  wipBatch : Option BatchRef
  wipL2Block : Option (Option BatchRef)
  pipBatch : Option BatchRef
  toProcess : List (Option BatchRef)
  processing : Option (Option BatchRef)
  processBusy : Bool
  toStore : List (Option BatchRef)
  storing : Option (Option BatchRef)
  last : Option (UInt64 × Hash)
  started : List BatchRef
  propagated : List (BatchRef × Hash)

namespace StartPart

variable (p : StartPart)

def pendingRefs : List BatchRef := (p.processing.toList ++ p.toProcess).reduceOption

def refs : List BatchRef := p.pendingRefs ++ p.wipBatch.toList

def numbers : List UInt64 := p.batches.map BatchRoots.number

/-- The batch comes right after the batch that was opened before it. -/
def Own (r : BatchRef) : Prop :=
  ∃ q n, r = q + 1 ∧ p.numbers[q]? = some n ∧ p.numbers[r]? = some (n + 1)

/-- The batch is the last one of the state or was opened with its root, and nothing is to
be stored. -/
structure Rooted (p : StartPart) (r : BatchRef) : Prop where
  toStore : p.toStore = []
  storing : p.storing = none
  last : ∃ b row, p.batches[r]? = some b ∧ p.last = some row ∧
    (b.number = row.1 ∨ b = ⟨row.1 + 1, row.2, row.2⟩)

def InProcess (r : BatchRef) : Prop :=
  ∃ q n, p.pipBatch = some q ∧ p.numbers[q]? = some n ∧ p.numbers[r]? = some n

structure Inv (p : StartPart) : Prop where
  sorted : p.refs.Pairwise (· ≤ ·)
  bound : ∀ r ∈ p.refs, r < p.batches.length
  startedBound : ∀ s ∈ p.started, s < p.batches.length
  pipBound : ∀ q, p.pipBatch = some q → q < p.batches.length
  wipLast : ∀ w, p.wipBatch = some w → w + 1 = p.batches.length
  before : ∀ s ∈ p.started, ∀ r ∈ p.refs, s ≤ r
  inProcess : ∀ r ∈ p.refs, r ∈ p.started → p.InProcess r
  own : ∀ r ∈ p.refs, p.refs.head? = some r ∨ p.Own r
  rooted : ∀ r, p.refs.head? = some r → r ∉ p.started → p.Own r ∨ p.Rooted r
  stored : ∀ r, some r ∈ p.storing.toList ++ p.toStore → r ∈ p.started
  processing : p.processBusy = false → p.processing = none

variable {p p' : StartPart} {r : BatchRef}

lemma Inv.eq_head (h : p.Inv) {r₀ : BatchRef} (hh : p.refs.head? = some r₀)
    (hr : r ∈ p.refs) (hl : r ≤ r₀) : r = r₀ := by
  obtain ⟨rest, hrs⟩ := head?_eq_some_iff.mp hh
  have hs := h.sorted
  rw [hrs] at hs hr
  rcases mem_cons.mp hr with rfl | hr
  · rfl
  · exact le_antisymm hl ((pairwise_cons.mp hs).1 r hr)

/-! ## What the goroutines expect of each other -/

structure ProcessIdle (p : StartPart) : Prop where
  toProcess : p.toProcess = []
  processBusy : p.processBusy = false

structure Idle (p : StartPart) : Prop extends ProcessIdle p where
  toStore : p.toStore = []
  storing : p.storing = none

structure MainRely (p p' : StartPart) : Prop where
  wipBatch : p'.wipBatch = p.wipBatch
  wipL2Block : p'.wipL2Block = p.wipL2Block
  numbers : p'.numbers = p.numbers
  processIdle : p.ProcessIdle → p'.ProcessIdle
  idle : p.Idle → p'.Idle ∧ p'.last = p.last

structure ProcessRely (p p' : StartPart) : Prop where
  processing : p'.processing = p.processing
  processBusy : p'.processBusy = p.processBusy
  started : p'.started = p.started
  propagated : p'.propagated = p.propagated
  pipBatch : p.processBusy = true → p'.pipBatch = p.pipBatch
  batches : p.batches <+: p'.batches

structure StoreRely (p p' : StartPart) : Prop where
  storing : p'.storing = p.storing

/-- The initial root of a batch is the same, or the one that it took over when it was started. -/
structure Keeps (p p' : StartPart) : Prop where
  started : p.started ⊆ p'.started
  propagated : p.propagated ⊆ p'.propagated
  initial : ∀ r b, p.batches[r]? = some b → ∃ b', p'.batches[r]? = some b' ∧
    (b'.initial = b.initial ∨ r ∉ p.started ∧ (r, b'.initial) ∈ p'.propagated)

variable {p'' : StartPart}

lemma MainRely.refl (p : StartPart) : MainRely p p := ⟨rfl, rfl, rfl, fun h => h, fun h => ⟨h, rfl⟩⟩

lemma MainRely.trans (h : MainRely p p') (h' : MainRely p' p'') : MainRely p p'' where
  wipBatch := h'.wipBatch.trans h.wipBatch
  wipL2Block := h'.wipL2Block.trans h.wipL2Block
  numbers := h'.numbers.trans h.numbers
  processIdle hidle := h'.processIdle (h.processIdle hidle)
  idle hidle := by
    obtain ⟨hi, hs⟩ := h.idle hidle
    obtain ⟨hil, hl⟩ := h'.idle hi
    exact ⟨hil, hl.trans hs⟩

lemma ProcessRely.of_eq (hp : p'.processing = p.processing) (hb : p'.processBusy = p.processBusy)
    (hs : p'.started = p.started) (hr : p'.propagated = p.propagated)
    (hpp : p'.pipBatch = p.pipBatch) (ht : p'.batches = p.batches) : ProcessRely p p' :=
  ⟨hp, hb, hs, hr, fun _ => hpp, ht ▸ prefix_refl _⟩

lemma ProcessRely.trans (h : ProcessRely p p') (h' : ProcessRely p' p'') : ProcessRely p p'' where
  processing := h'.processing.trans h.processing
  processBusy := h'.processBusy.trans h.processBusy
  started := h'.started.trans h.started
  propagated := h'.propagated.trans h.propagated
  pipBatch hbusy := by rw [h'.pipBatch (h.processBusy.trans hbusy), h.pipBatch hbusy]
  batches := h.batches.trans h'.batches

lemma getElem?_of_isPrefix {α : Type} {l l' : List α} (h : l <+: l') {i : ℕ} {a : α}
    (ha : l[i]? = some a) : l'[i]? = some a := by
  obtain ⟨rest, rfl⟩ := h
  rw [List.getElem?_append_left (List.getElem?_eq_some_iff.mp ha).1, ha]

lemma ProcessRely.keeps (h : ProcessRely p p') : Keeps p p' where
  started := h.started ▸ refl _
  propagated := h.propagated ▸ refl _
  initial _ b hb := ⟨b, getElem?_of_isPrefix h.batches hb, .inl rfl⟩

lemma Keeps.of_eq (hs : p'.started = p.started) (hp : p'.propagated = p.propagated)
    (ht : p'.batches = p.batches) : Keeps p p' :=
  ⟨hs ▸ refl _, hp ▸ refl _, fun _ b hb => ⟨b, ht ▸ hb, .inl rfl⟩⟩

lemma Keeps.trans (h : Keeps p p') (h' : Keeps p' p'') : Keeps p p'' where
  started := Subset.trans h.started h'.started
  propagated := Subset.trans h.propagated h'.propagated
  initial r b hb := by
    obtain ⟨b', hb', ht⟩ := h.initial r b hb
    obtain ⟨b'', hb'', ho⟩ := h'.initial r b' hb'
    refine ⟨b'', hb'', ?_⟩
    rcases ho with ho | ⟨hs, hm⟩
    · rw [ho]
      exact ht.imp_right fun ht => ⟨ht.1, h'.propagated ht.2⟩
    · exact .inr ⟨fun hr => hs (h.started hr), hm⟩

/-! ## Steps of the main loop -/

structure MainStep (p p' : StartPart) : Prop where
  inv : p'.Inv
  process : p.ProcessRely p'
  store : p.StoreRely p'

/-- The batches that can get L2 blocks are some of those before, with the same first
one. -/
structure Fewer (p p' : StartPart) : Prop where
  sorted : p'.refs.Pairwise (· ≤ ·)
  subset : p'.refs ⊆ p.refs
  head : ∀ r, p'.refs.head? = some r → p.refs.head? = some r

lemma Fewer.of_isPrefix (h : p.Inv) (hf : p'.refs <+: p.refs) : Fewer p p' := by
  refine ⟨h.sorted.sublist hf.sublist, hf.subset, fun r hr => ?_⟩
  obtain ⟨rest, hs⟩ := hf
  rw [← hs, head?_append, hr]
  rfl

lemma exists_head?_of_mem {α : Type} {l : List α} {a : α} (h : a ∈ l) :
    ∃ first, l.head? = some first := by
  cases l with
  | nil => cases h
  | cons first rest => exact ⟨first, rfl⟩

lemma Inv.fewer (h : p.Inv) (hrf : Fewer p p') (hb : p'.batches = p.batches) (ht : p'.started =
    p.started) (hp : p'.pipBatch = p.pipBatch) (hwp : ∀ w, p'.wipBatch = some w → p.wipBatch =
    some w) (hso : p'.toStore = p.toStore) (hg : p'.storing = p.storing) (hl : p'.last = p.last)
    (hpr : p'.processBusy = false → p'.processing = none) : p'.Inv := by
  have hn : p'.numbers = p.numbers := by rw [numbers, hb, numbers]
  have ho : ∀ r, p'.Own r ↔ p.Own r := by
    intro r
    rw [Own, Own, hn]
  refine ⟨hrf.sorted, fun r hr => ?_, ?_, ?_, fun w hw => ?_, fun s hs r hr => ?_,
    fun r hr hs => ?_, fun r hr => ?_, fun r hr hs => ?_, fun r hr => ?_, hpr⟩
  · rw [hb]
    exact h.bound r (hrf.subset hr)
  · rw [ht, hb]
    exact h.startedBound
  · rw [hp, hb]
    exact h.pipBound
  · rw [hb]
    exact h.wipLast w (hwp w hw)
  · exact h.before s (ht ▸ hs) r (hrf.subset hr)
  · rw [InProcess, hp, hn]
    exact h.inProcess r (hrf.subset hr) (ht ▸ hs)
  · rw [ho]
    refine (h.own r (hrf.subset hr)).imp_left fun hr' => ?_
    obtain ⟨first, hf⟩ := exists_head?_of_mem hr
    rw [hf, ← hrf.head first hf, hr']
  · rw [ht] at hs
    rw [ho]
    refine (h.rooted r (hrf.head r hr) hs).imp_right fun hr' => ?_
    refine ⟨hso.trans hr'.toStore, hg.trans hr'.storing, ?_⟩
    rw [hb, hl]
    exact hr'.last
  · rw [hso, hg] at hr
    rw [ht]
    exact h.stored r hr

variable {x : Option BatchRef}

lemma Inv.send (h : p.Inv) (hx : x = none ∨ x = p.wipBatch) :
    MainStep p { p with toProcess := p.toProcess ++ [x] } := by
  refine ⟨?_, .of_eq rfl rfl rfl rfl rfl rfl, ⟨rfl⟩⟩
  have hp : pendingRefs { p with toProcess := p.toProcess ++ [x] } = p.pendingRefs ++ x.toList := by
    simp only [pendingRefs, reduceOption_append, reduceOption_singleton, append_assoc]
  refine h.fewer ?_ rfl rfl rfl (fun _ hw => hw) rfl rfl rfl h.processing
  rcases x with _ | w
  · exact .of_isPrefix h (by simp [refs, hp])
  have hwp : p.wipBatch = some w := (hx.resolve_left nofun).symm
  have hrf : refs { p with toProcess := p.toProcess ++ [some w] } = p.refs ++ [w] := by
    rw [refs, hp, refs, hwp]
    rfl
  have hm : w ∈ p.refs := by
    rw [refs, hwp]
    exact mem_append_cons_self
  refine ⟨?_, ?_, fun r hr => ?_⟩
  · rw [hrf, pairwise_append]
    refine ⟨h.sorted, pairwise_singleton _ _, fun r hr w' hw' => ?_⟩
    rw [mem_singleton.mp hw']
    exact le_of_lt_succ ((h.bound r hr).trans_eq (h.wipLast w hwp).symm)
  · rw [hrf]
    exact append_subset.mpr ⟨refl _, cons_subset.mpr ⟨hm, nofun⟩⟩
  obtain ⟨first, hf⟩ := exists_head?_of_mem hm
  rw [hrf, head?_append, hf] at hr
  rw [hf, ← hr]
  rfl

variable (P : StartPart → Prop)

def Stable : Prop := ∀ p p', P p → MainRely p p' → P p'

lemma stable_idle : Stable Idle := fun _ _ h hr => (hr.idle h).1

/-- The L2 block in progress is one of the batch in progress. -/
def BlockOfWip (p : StartPart) : Prop := ∀ x, p.wipL2Block = some x → x = none ∨ x = p.wipBatch

lemma stable_blockOfWip : Stable BlockOfWip := by
  intro p p' h hr x hx
  rw [hr.wipBatch]
  exact h x (hr.wipL2Block ▸ hx)

variable {Q : StartPart → Prop}

lemma Stable.and {P : StartPart → Prop} (hP : Stable P) (hQ : Stable Q) :
    Stable fun p => P p ∧ Q p :=
  fun p p' h hr => ⟨hP p p' h.1 hr, hQ p p' h.2 hr⟩

lemma Stable.imp (P : Prop) (hQ : Stable Q) : Stable fun p => P → Q p :=
  fun p p' h hr hP => hQ p p' (h hP) hr

structure Closed (number : UInt64) (p : StartPart) : Prop where
  wipBatch : p.wipBatch = none
  number : p.numbers.getLast? = some number

lemma Inv.closeWip (h : p.Inv) {w : BatchRef} {number : UInt64} (hw : p.wipBatch = some w)
    (hn : p.numbers[w]? = some number) :
    MainStep p { p with wipBatch := none } ∧ Closed number { p with wipBatch := none } := by
  refine ⟨⟨h.fewer (.of_isPrefix h ?_) rfl rfl rfl nofun rfl rfl rfl h.processing,
    .of_eq rfl rfl rfl rfl rfl rfl, ⟨rfl⟩⟩, rfl, ?_⟩
  · rw [refs, refs, toList_none, append_nil]
    exact prefix_append _ _
  have hl : p.batches.length - 1 = w := by
    rw [← h.wipLast w hw]
    rfl
  show p.numbers.getLast? = some number
  rw [getLast?_eq_getElem?, numbers, length_map, hl]
  exact hn

lemma Own.append (h : p.Own r) (hm : p.numbers <+: p'.numbers) : p'.Own r := by
  obtain ⟨q, n, hr, hq, hn⟩ := h
  exact ⟨q, n, hr, getElem?_of_isPrefix hm hq, getElem?_of_isPrefix hm hn⟩

/-- A batch is opened right after the one before, or after the last batch of the state with its
root, or as that batch. -/
def Opens (p : StartPart) (b : BatchRoots) : Prop :=
  (∃ n, p.numbers.getLast? = some n ∧ b.number = n + 1) ∨
    p.Idle ∧ ∃ row, p.last = some row ∧ (b.number = row.1 ∨ b = ⟨row.1 + 1, row.2, row.2⟩)

lemma stable_opens (b : BatchRoots) : Stable fun p => p.Opens b := by
  intro p p' h hr
  rcases h with ⟨n, hn, hm⟩ | ⟨hil, row, hw, hb⟩
  · exact .inl ⟨n, hr.numbers ▸ hn, hm⟩
  · obtain ⟨hi, hl⟩ := hr.idle hil
    exact .inr ⟨hi, row, hl.trans hw, hb⟩

/-- What the main loop knows between two batches: the last batch and its root. -/
structure Between (last : UInt64 × Hash) (p : StartPart) : Prop where
  wipBatch : p.wipBatch = none
  opens : p.Opens ⟨last.1 + 1, last.2, last.2⟩

lemma stable_between (last : UInt64 × Hash) : Stable (Between last) :=
  fun p p' h hr => ⟨hr.wipBatch.trans h.wipBatch, stable_opens _ p p' h.opens hr⟩

lemma Closed.between {number : UInt64} (h : p.Closed number) (root : Hash) :
    p.Between (number, root) :=
  ⟨h.wipBatch, .inl ⟨number, h.number, rfl⟩⟩

def openWip (p : StartPart) (b : BatchRoots) (pipBatch : Option BatchRef) : StartPart :=
  { p with
    batches := p.batches ++ [b]
    wipBatch := some p.batches.length
    pipBatch := pipBatch }

lemma numbers_openWip (p : StartPart) (b : BatchRoots) (pipBatch : Option BatchRef) :
    (p.openWip b pipBatch).numbers = p.numbers ++ [b.number] :=
  map_append

lemma Inv.pending_nil (h : p.Inv) (hi : p.ProcessIdle) : p.pendingRefs = [] := by
  rw [pendingRefs, h.processing hi.processBusy, hi.toProcess]
  rfl

variable {b : BatchRoots}

lemma Opens.own_or_rooted (hb : p.Opens b) (pipBatch : Option BatchRef) : (p.openWip b pipBatch).Own
    p.batches.length ∨ p.Idle ∧ (p.openWip b pipBatch).Rooted p.batches.length := by
  rcases hb with ⟨n, hn, hm⟩ | ⟨hi, row, hr, hb⟩
  · refine .inl ⟨p.batches.length - 1, n, ?_, ?_, ?_⟩
    · have hp : p.batches ≠ [] := by
        rintro hl
        rw [numbers, hl] at hn
        cases hn
      exact (succ_pred_eq_of_pos (length_pos_iff.mpr hp)).symm
    · rw [numbers_openWip]
      refine getElem?_of_isPrefix (prefix_append _ _) ?_
      rwa [getLast?_eq_getElem?, numbers, length_map] at hn
    rw [numbers_openWip, hm, getElem?_append_right, numbers, length_map, Nat.sub_self]
    · rfl
    · rw [numbers, length_map]
  · refine .inr ⟨hi, hi.toStore, hi.storing, b, row, ?_, hr, hb⟩
    rw [openWip, getElem?_append_right le_rfl, Nat.sub_self]
    rfl

variable {pipBatch : Option BatchRef}

lemma Inv.openWip (h : p.Inv) (hb : p.Opens b) (hpp : p.pendingRefs ≠ [] → pipBatch = p.pipBatch)
    (hbn : ∀ q, pipBatch = some q → q ≤ p.batches.length) : (p.openWip b pipBatch).Inv := by
  have hrf : (p.openWip b pipBatch).refs = p.pendingRefs ++ [p.batches.length] := rfl
  have hp : p.numbers <+: (p.openWip b pipBatch).numbers :=
    numbers_openWip p b pipBatch ▸ prefix_append _ _
  have hl : (p.openWip b pipBatch).batches.length = p.batches.length + 1 := length_append
  have hsb : ∀ r ∈ p.pendingRefs, r ∈ p.refs := fun r => mem_append_left _
  have hh : ∀ r, r ∈ p.pendingRefs → p.refs.head? = (p.openWip b pipBatch).refs.head? := by
    intro r hr
    obtain ⟨first, hf⟩ := exists_head?_of_mem hr
    rw [hrf, refs, head?_append, head?_append, hf]
    rfl
  have hc : ∀ r ∈ (p.openWip b pipBatch).refs, r ∈ p.pendingRefs ∨ r = p.batches.length :=
    fun r hr => (mem_append.mp hr).imp_right mem_singleton.mp
  refine ⟨?_, fun r hr => ?_, fun s hs => ?_, fun q hq => ?_, fun w hw => ?_, fun s hs r hr => ?_,
    fun r hr hs => ?_, fun r hr => ?_, fun r hr hs => ?_, h.stored, h.processing⟩
  · rw [hrf, pairwise_append]
    refine ⟨(pairwise_append.mp h.sorted).1, pairwise_singleton _ _, fun r hr w hw => ?_⟩
    rw [mem_singleton.mp hw]
    exact (h.bound r (hsb r hr)).le
  · rw [hl]
    rcases hc r hr with hr | rfl
    · exact (h.bound r (hsb r hr)).trans (lt_succ_self _)
    · exact lt_succ_self _
  · rw [hl]
    exact (h.startedBound s hs).trans (lt_succ_self _)
  · rw [hl]
    exact lt_succ_of_le (hbn q hq)
  · cases hw
    exact hl.symm
  · rcases hc r hr with hr | rfl
    · exact h.before s hs r (hsb r hr)
    · exact (h.startedBound s hs).le
  · rcases hc r hr with hr | rfl
    · obtain ⟨q, n, hq, hn, hn'⟩ := h.inProcess r (hsb r hr) hs
      exact ⟨q, n, (hpp (ne_nil_of_mem hr)).trans hq, getElem?_of_isPrefix hp hn,
        getElem?_of_isPrefix hp hn'⟩
    · exact absurd (h.startedBound _ hs) (lt_irrefl _)
  · rcases hc r hr with hr | rfl
    · rw [← hh r hr]
      exact (h.own r (hsb r hr)).imp_right fun ho => ho.append hp
    refine (hb.own_or_rooted pipBatch).symm.imp_left fun hi => ?_
    rw [hrf, h.pending_nil hi.1.toProcessIdle]
    rfl
  rcases hc r (mem_of_head? hr) with hm | rfl
  · rw [← hh r hm] at hr
    refine (h.rooted r hr hs).imp (fun ho => ho.append hp) fun ht => ?_
    obtain ⟨b', row, hb', hrw⟩ := ht.last
    exact ⟨ht.toStore, ht.storing, b', row, getElem?_of_isPrefix (prefix_append _ _) hb', hrw⟩
  · exact (hb.own_or_rooted pipBatch).imp_right And.right

lemma Inv.openWip_step (h : p.Inv) (hb : p.Opens b) : MainStep p (p.openWip b p.pipBatch) :=
  ⟨h.openWip hb (fun _ => rfl) fun q hq => (h.pipBound q hq).le,
    ⟨rfl, rfl, rfl, rfl, fun _ => rfl, prefix_append _ _⟩, ⟨rfl⟩⟩

lemma Inv.initWip_step (h : p.Inv) (hb : p.Opens b) (hi : p.Idle)
    (hbn : ∀ q, pipBatch = some q → q ≤ p.batches.length) : MainStep p (p.openWip b pipBatch) := by
  refine ⟨h.openWip hb (fun hn => absurd (h.pending_nil hi.toProcessIdle) hn) hbn,
    ⟨rfl, rfl, rfl, rfl, fun hs => ?_, prefix_append _ _⟩, ⟨rfl⟩⟩
  exact absurd (hi.processBusy.symm.trans hs) nofun

lemma Inv.setLast (h : p.Inv) (ho : ∀ r, p.refs.head? = some r → r ∉ p.started → p.Own r)
    (last : Option (UInt64 × Hash)) : Inv { p with last := last } :=
  ⟨h.sorted, h.bound, h.startedBound, h.pipBound, h.wipLast, h.before, h.inProcess, h.own,
    fun r hr hs => .inl (ho r hr hs), h.stored, h.processing⟩

lemma Inv.pushForced (h : p.Inv) (hi : p.Idle) (hw : p.wipBatch = none) (last : UInt64 × Hash) :
    MainStep p { p with last := some last } ∧ Between last { p with last := some last } ∧
    Idle { p with last := some last } := by
  have hidle' : Idle { p with last := some last } :=
    ⟨⟨hi.toProcess, hi.processBusy⟩, hi.toStore, hi.storing⟩
  refine ⟨⟨h.setLast (fun r hr => ?_) _, .of_eq rfl rfl rfl rfl rfl rfl, ⟨rfl⟩⟩,
    ⟨hw, .inr ⟨hidle', last, rfl, .inr rfl⟩⟩, hidle'⟩
  rw [refs, h.pending_nil hi.toProcessIdle, hw] at hr
  cases hr

/-! ## Steps of the goroutine that processes L2 blocks -/

structure ProcessStep (p p' : StartPart) : Prop where
  inv : p'.Inv
  main : p.MainRely p'
  store : p.StoreRely p'
  keeps : p.Keeps p'

lemma mainRely_of_busy (hi : ¬p.ProcessIdle) (hw : p'.wipBatch = p.wipBatch)
    (hb : p'.wipL2Block = p.wipL2Block) (hn : p'.numbers = p.numbers) : MainRely p p' :=
  ⟨hw, hb, hn, fun h => absurd h hi, fun h => absurd h.toProcessIdle hi⟩

lemma not_idle_of_busy (h : p.processBusy = true) : ¬p.ProcessIdle :=
  fun hi => absurd (hi.processBusy.symm.trans h) nofun

lemma Inv.take (h : p.Inv) (hb : p.processBusy = false) {rest : List (Option BatchRef)}
    (hc : p.toProcess = x :: rest) :
    ProcessStep p { p with toProcess := rest, processing := some x, processBusy := true } := by
  have hr : refs { p with toProcess := rest, processing := some x, processBusy := true } =
      p.refs := by
    rw [refs, refs, pendingRefs, pendingRefs, h.processing hb, hc]
    rfl
  refine ⟨h.fewer ?_ rfl rfl rfl (fun _ hw => hw) rfl rfl rfl nofun,
    mainRely_of_busy (fun hi => ?_) rfl rfl rfl, ⟨rfl⟩, .of_eq rfl rfl rfl⟩
  · exact .of_isPrefix h (hr ▸ prefix_refl _)
  · exact absurd (hc.symm.trans hi.toProcess) nofun

structure Taken (x : Option BatchRef) (p : StartPart) : Prop where
  processing : p.processing = some x
  busy : p.processBusy = true

lemma head?_refs (h : p.processing = some (some r)) : p.refs.head? = some r := by
  rw [refs, pendingRefs, h]
  rfl

lemma Taken.head? (h : p.Taken (some r)) : p.refs.head? = some r := head?_refs h.processing

/-- The goroutine that processes L2 blocks can rely on it. -/
def ProcessStable : Prop := ∀ p p', P p → ProcessRely p p' → P p'

lemma processStable_taken (x : Option BatchRef) : ProcessStable (Taken x) :=
  fun _ _ h hr => ⟨hr.processing.trans h.processing, hr.processBusy.trans h.busy⟩

structure Done (p : StartPart) : Prop where
  processing : p.processing = none
  busy : p.processBusy = true

lemma processStable_done : ProcessStable Done :=
  fun _ _ h hr => ⟨hr.processing.trans h.processing, hr.processBusy.trans h.busy⟩

structure Starts (r : BatchRef) (p : StartPart) : Prop extends p.Taken (some r) where
  inProcess : p.InProcess r

lemma processStable_starts (r : BatchRef) : ProcessStable (Starts r) := by
  intro p p' h hr
  obtain ⟨q, n, hq, hn, hn'⟩ := h.inProcess
  have hp : p.numbers <+: p'.numbers := hr.batches.map _
  exact ⟨processStable_taken _ p p' h.toTaken hr, q, n, (hr.pipBatch h.busy).trans hq,
    getElem?_of_isPrefix hp hn, getElem?_of_isPrefix hp hn'⟩

structure Started (r : BatchRef) (p : StartPart) : Prop extends p.Taken (some r) where
  started : r ∈ p.started

lemma processStable_started (r : BatchRef) : ProcessStable (Started r) :=
  fun p p' h hr =>
    ⟨processStable_taken _ p p' h.toTaken hr, hr.started.symm ▸ h.started⟩

lemma Inv.setPip (h : p.Inv) (hp : p.Taken (some r)) (hpp : p.pipBatch = none) :
    ProcessStep p { p with pipBatch := some r } := by
  refine ⟨⟨h.sorted, h.bound, h.startedBound, fun q hq => ?_, h.wipLast, h.before, fun s hs ht =>
    ?_, h.own, fun s hs hm => (h.rooted s hs hm).imp_right fun hr => ?_, h.stored, h.processing⟩,
    mainRely_of_busy (not_idle_of_busy hp.busy) rfl rfl rfl, ⟨rfl⟩, .of_eq rfl rfl rfl⟩
  · cases hq
    exact h.bound r (mem_of_head? hp.head?)
  · obtain ⟨q, n, hq, -⟩ := h.inProcess s hs ht
    exact absurd (hpp.symm.trans hq) nofun
  · exact ⟨hr.toStore, hr.storing, hr.last⟩

/-- The state with an event of a batch. -/
def start (p : StartPart) (r : BatchRef) (b : BatchRoots) (pipBatch : Option BatchRef)
    (propagated : List (BatchRef × Hash)) : StartPart :=
  { p with
    batches := p.batches.set r b
    pipBatch := pipBatch
    started := p.started ++ [r]
    propagated := p.propagated ++ propagated }

lemma numbers_start {b' : BatchRoots} (hb : p.batches[r]? = some b) (hn : b'.number = b.number)
    (pipBatch : Option BatchRef) (sent : List (BatchRef × Hash)) :
    (p.start r b' pipBatch sent).numbers = p.numbers :=
  map_set_of_eq hb hn

lemma Inv.start (h : p.Inv) {r : BatchRef} (hp : p.Taken (some r)) {b b' : BatchRoots}
    (hb : p.batches[r]? = some b) (hnm : b'.number = b.number) {pipBatch : Option BatchRef}
    {sent : List (BatchRef × Hash)} (hpp : (p.start r b' pipBatch sent).InProcess r) :
    (p.start r b' pipBatch sent).Inv := by
  have hu := numbers_start hb hnm pipBatch sent
  have hh : (p.start r b' pipBatch sent).refs.head? = some r := hp.head?
  have hl : (p.start r b' pipBatch sent).batches.length = p.batches.length := length_set
  have hst : ∀ s ∈ (p.start r b' pipBatch sent).started, s ∈ p.started ∨ s = r :=
    fun s hs => (mem_append.mp hs).imp_right mem_singleton.mp
  refine ⟨h.sorted, fun s hs => ?_, fun s hs => ?_, fun q hq => ?_, fun w hw => ?_, fun s hs t ht =>
    ?_, fun s hs hm => ?_, fun s hs => ?_, fun s hs hm => ?_, fun s hs => ?_, h.processing⟩
  · rw [hl]
    exact h.bound s hs
  · rw [hl]
    rcases hst s hs with hs | rfl
    · exact h.startedBound s hs
    · exact h.bound s (mem_of_head? hp.head?)
  · obtain ⟨q', n, hq', hn, -⟩ := hpp
    obtain rfl := mem_unique hq' hq
    have hq := (List.getElem?_eq_some_iff.mp hn).1
    rwa [numbers, length_map] at hq
  · rw [hl]
    exact h.wipLast w hw
  · rcases hst s hs with hs | rfl
    · exact h.before s hs t ht
    obtain ⟨rest, hr⟩ := head?_eq_some_iff.mp hp.head?
    have hsr := h.sorted
    have ht : t ∈ p.refs := ht
    rw [hr] at hsr ht
    rcases mem_cons.mp ht with rfl | ht
    · exact le_rfl
    · exact (pairwise_cons.mp hsr).1 t ht
  · have hs' : s = r := by
      rcases hst s hm with hm | rfl
      · exact h.eq_head hp.head? hs (h.before s hm r (mem_of_head? hp.head?))
      · rfl
    rw [hs']
    exact hpp
  · rw [Own, hu]
    exact h.own s hs
  · obtain rfl := mem_unique hh hs
    exact absurd mem_append_cons_self hm
  · exact mem_append_left _ (h.stored s hs)

section
variable (h : p.Inv)
include h

lemma Inv.start_step (hp : p.Taken (some r)) {b' : BatchRoots} (hb : p.batches[r]? = some b)
    (hn : b'.number = b.number) {sent : List (BatchRef × Hash)}
    (hpp : (p.start r b' pipBatch sent).InProcess r) (hi : b'.initial = b.initial ∨ r ∉ p.started ∧
    (r, b'.initial) ∈ sent) : ProcessStep p (p.start r b' pipBatch sent) := by
  refine ⟨h.start hp hb hn hpp, mainRely_of_busy (not_idle_of_busy hp.busy) rfl rfl (numbers_start
    hb hn _ _), ⟨rfl⟩, subset_append_left _ _, subset_append_left _ _, fun s c hc => ?_⟩
  by_cases hs : s = r
  · obtain rfl := hs
    obtain rfl := mem_unique hb hc
    refine ⟨b', ?_, hi.imp_right fun hi => ⟨hi.1, ?_⟩⟩
    · exact List.getElem?_set_self (List.getElem?_eq_some_iff.mp hb).1
    · exact mem_append_right _ hi.2
  · refine ⟨c, ?_, .inl rfl⟩
    rw [StartPart.start, getElem?_set_ne (Ne.symm hs)]
    exact hc

/-- The block of a batch is gone from the blocks to process. -/
lemma Inv.eq_head_of_tail {s : BatchRef} {rest : List BatchRef} (hf : p.refs = r :: rest)
    (hs : rest.head? = some s) (hr : r ∈ rest) : s = r := by
  obtain ⟨rest', rfl⟩ := head?_eq_some_iff.mp hs
  have hsr := h.sorted
  rw [hf] at hsr
  obtain ⟨hl, hsr⟩ := pairwise_cons.mp hsr
  rcases mem_cons.mp hr with rfl | hr
  · rfl
  · exact le_antisymm ((pairwise_cons.mp hsr).1 r hr) (hl s mem_cons_self)

variable {toStore : List (Option BatchRef)}

lemma Inv.pop (hp : p.Taken (some r))
    (hst : toStore = p.toStore ∨ r ∈ p.started ∧ toStore = p.toStore ++ [some r]) :
    Inv { p with processing := none, toStore := toStore } := by
  let p' : StartPart := { p with processing := none, toStore := toStore }
  have hrf : p.refs = r :: p'.refs := by
    rw [refs, refs, pendingRefs, pendingRefs, hp.processing]
    rfl
  have hb : ∀ s ∈ p'.refs, s ∈ p.refs := fun s hs => hrf ▸ mem_cons_of_mem _ hs
  have ho : ∀ s ∈ p'.refs, s = r ∨ p.Own s := by
    intro s hs
    refine (h.own s (hb s hs)).imp_left fun hh => ?_
    rw [hrf] at hh
    exact (some.inj hh).symm
  refine ⟨?_, fun s hs => h.bound s (hb s hs), h.startedBound, h.pipBound, h.wipLast,
    fun s hs t ht => h.before s hs t (hb t ht), fun s hs => h.inProcess s (hb s hs),
    fun s hs => (ho s hs).imp_left ?_, fun s hs hm => ?_, fun s hs => ?_, fun _ => rfl⟩
  · exact (pairwise_cons.mp (hrf ▸ h.sorted)).2
  · rintro rfl
    obtain ⟨first, hf⟩ := exists_head?_of_mem hs
    exact hf.trans (congrArg some (h.eq_head_of_tail hrf hf hs))
  · rcases ho s (mem_of_head? hs) with rfl | ho
    · rcases hst with hst | ⟨he, -⟩
      · refine (h.rooted s hp.head? hm).imp_right fun hr => ?_
        exact ⟨hst.trans hr.toStore, hr.storing, hr.last⟩
      · exact absurd he hm
    · exact .inl ho
  rcases hst with hst | ⟨hm, hst⟩
  · exact h.stored s (hst ▸ hs)
  rcases mem_append.mp hs with hs | hs
  · exact h.stored s (mem_append_left _ hs)
  rw [hst] at hs
  rcases mem_append.mp hs with hs | hs
  · exact h.stored s (mem_append_right _ hs)
  · cases mem_singleton.mp hs
    exact hm

lemma Inv.pop_step (hp : p.Taken (some r))
    (hs : toStore = p.toStore ∨ r ∈ p.started ∧ toStore = p.toStore ++ [some r]) :
    ProcessStep p { p with processing := none, toStore := toStore } :=
  ⟨h.pop hp hs, mainRely_of_busy (not_idle_of_busy hp.busy) rfl rfl rfl, ⟨rfl⟩, .of_eq rfl rfl rfl⟩

lemma Inv.discard (hp : p.Taken x) : ProcessStep p { p with processing := none } := by
  cases x with
  | some r => exact h.pop_step hp (.inl rfl)
  | none =>
    have hr : refs { p with processing := none } = p.refs := by
      rw [refs, refs, pendingRefs, pendingRefs, hp.processing]
      rfl
    refine ⟨h.fewer ?_ rfl rfl rfl (fun _ hw => hw) rfl rfl rfl fun _ => rfl,
      mainRely_of_busy (not_idle_of_busy hp.busy) rfl rfl rfl, ⟨rfl⟩, .of_eq rfl rfl rfl⟩
    exact .of_isPrefix h (hr ▸ prefix_refl _)

lemma Inv.free (hp : p.processing = none) (hb : p.processBusy = true) :
    ProcessStep p { p with processBusy := false } :=
  ⟨h.fewer (.of_isPrefix h (prefix_refl _)) rfl rfl rfl (fun _ hw => hw) rfl rfl rfl
    fun _ => hp, mainRely_of_busy (not_idle_of_busy hb) rfl rfl rfl, ⟨rfl⟩,
    .of_eq rfl rfl rfl⟩
end

structure StoreStep (p p' : StartPart) : Prop where
  inv : p'.Inv
  main : p.MainRely p'
  process : p.ProcessRely p'

lemma Inv.own_of_storing (h : p.Inv) (ht : p.toStore ≠ [] ∨ p.storing ≠ none)
    (hr : p.refs.head? = some r) (hs : r ∉ p.started) : p.Own r := by
  refine (h.rooted r hr hs).resolve_right fun hrt => ?_
  rcases ht with ht | ht
  · exact ht hrt.toStore
  · exact ht hrt.storing

lemma not_idle_of_storing (h : p.toStore ≠ [] ∨ p.storing ≠ none) : ¬p.Idle := by
  rintro hi
  rcases h with h | h
  · exact h hi.toStore
  · exact h hi.storing

lemma Inv.setStoring (h : p.Inv) (ht : p.toStore ≠ [] ∨ p.storing ≠ none)
    (toStore : List (Option BatchRef)) (sto : Option (Option BatchRef))
    (hb : ∀ r, some r ∈ sto.toList ++ toStore → some r ∈ p.storing.toList ++ p.toStore)
    (last : Option (UInt64 × Hash)) :
    StoreStep p { p with toStore := toStore, storing := sto, last := last } := by
  refine ⟨⟨h.sorted, h.bound, h.startedBound, h.pipBound, h.wipLast, h.before, h.inProcess, h.own,
    fun r hr hs => .inl ?_, fun r hr => h.stored r (hb r hr), h.processing⟩, ⟨rfl, rfl, rfl, fun hi
    => ⟨hi.toProcess, hi.processBusy⟩, fun hi => ?_⟩, .of_eq rfl rfl rfl rfl rfl rfl⟩
  · exact h.own_of_storing ht hr hs
  · exact absurd hi (not_idle_of_storing ht)

end StartPart

end EthdaNode.Sequencer
