import Mathlib.Data.List.TakeWhile
import Mathlib.Tactic.Common

/-!
# The full batches of the data stream

`computeFullBatches` puts the blocks into their batches and the transactions into their blocks. Its
cursors count what has been taken. They fall behind the true positions when something is skipped,
but they never pass them.
-/

namespace EthdaNode.State.FullBatches

open List

/-- `DSBatch`, `DSL2Block` and `DSL2Transaction`: the numbers, and the rest that is only copied. -/
structure DSBatch where
  batchNumber : ℕ
  rest : ℕ
  deriving DecidableEq

structure DSL2Block where
  batchNumber : ℕ
  l2BlockNumber : ℕ
  rest : ℕ
  deriving DecidableEq

structure DSL2Transaction where
  l2BlockNumber : ℕ
  rest : ℕ
  deriving DecidableEq

structure DSL2FullBlock where
  block : DSL2Block
  txs : List DSL2Transaction
  deriving DecidableEq

structure DSFullBatch where
  batch : DSBatch
  l2Blocks : List DSL2FullBlock
  deriving DecidableEq

structure Cursor where
  currentL2Tx : ℕ
  currentL2Block : ℕ
  prevL2BlockNumber : ℕ

def takeTxs (number : ℕ) : List DSL2Transaction → List DSL2Transaction
  | [] => []
  | tx :: txs =>
    if tx.l2BlockNumber = number then tx :: takeTxs number txs
    else if tx.l2BlockNumber > number then [] else takeTxs number txs

variable (l2Txs : List DSL2Transaction)

def takeBlocks (batchNumber : ℕ) : List DSL2Block → Cursor → Cursor × List DSL2FullBlock
  | [], s => (s, [])
  | l2Block :: l2Blocks, s =>
    if s.prevL2BlockNumber ≠ 0 ∧ l2Block.l2BlockNumber ≤ s.prevL2BlockNumber then
      takeBlocks batchNumber l2Blocks s
    else if l2Block.batchNumber = batchNumber then
      let txs := takeTxs l2Block.l2BlockNumber (l2Txs.drop s.currentL2Tx)
      let rest := takeBlocks batchNumber l2Blocks
        ⟨s.currentL2Tx + txs.length, s.currentL2Block + 1, l2Block.l2BlockNumber⟩
      (rest.1, ⟨l2Block, txs⟩ :: rest.2)
    else if l2Block.batchNumber > batchNumber then (s, [])
    else takeBlocks batchNumber l2Blocks s

variable (l2Blocks : List DSL2Block)

def takeBatches : List DSBatch → Cursor → List DSFullBatch
  | [], _ => []
  | batch :: batches, s =>
    let taken := takeBlocks l2Txs batch.batchNumber (l2Blocks.drop s.currentL2Block) s
    ⟨batch, taken.2⟩ :: takeBatches batches taken.1

def computeFullBatches (batches : List DSBatch) (prevL2BlockNumber : ℕ) : List DSFullBatch :=
  takeBatches l2Txs l2Blocks batches ⟨0, 0, prevL2BlockNumber⟩

def TxsSorted : Prop := l2Txs.Pairwise (·.l2BlockNumber ≤ ·.l2BlockNumber)

def BlocksSorted : Prop := l2Blocks.Pairwise (·.l2BlockNumber < ·.l2BlockNumber)

def BatchesSorted : Prop := l2Blocks.Pairwise (·.batchNumber ≤ ·.batchNumber)

/-- The blocks of a batch that come after block `prev`, with their transactions. -/
def blocksOf (prev batchNumber : ℕ) : List DSL2FullBlock :=
  (l2Blocks.filter fun b => (prev = 0 ∨ prev < b.l2BlockNumber) ∧ b.batchNumber = batchNumber).map
    fun b => ⟨b, l2Txs.filter fun tx => tx.l2BlockNumber = b.l2BlockNumber⟩

/-! ## The cursors -/

section
variable {α : Type} {key : α → ℕ} {l m : List α} {k : ℕ}

/-- As many elements as were taken from a sorted list lie at its start. -/
lemma key_le_of_sublist (hs : m <+ l) (hl : l.Pairwise (key · ≤ key ·)) (hm : ∀ x ∈ m, key x ≤ k) :
    ∀ x ∈ l.take m.length, key x ≤ k := by
  induction hs with
  | slnil => nofun
  | @cons m l a hs ih =>
    rw [pairwise_cons] at hl
    intro x hx
    rcases m with _ | ⟨y, m⟩
    · cases hx
    rw [length_cons, take_succ_cons, mem_cons] at hx
    rcases hx with rfl | hx
    · exact Nat.le_trans (hl.1 y (hs.subset mem_cons_self)) (hm y mem_cons_self)
    · exact ih hl.2 hm x (take_subset_take_left _ (Nat.le_succ _) hx)
  | @cons_cons m l a hs ih =>
    rw [forall_mem_cons] at hm
    rw [length_cons, take_succ_cons, forall_mem_cons]
    exact ⟨hm.1, ih hl.of_cons hm.2⟩
end

variable {l2Txs : List DSL2Transaction} {number n : ℕ}

lemma takeTxs_eq {txs : List DSL2Transaction} (h : TxsSorted txs) :
    takeTxs n txs = txs.filter (·.l2BlockNumber = n) := by
  induction txs with
  | nil => rfl
  | cons tx txs ih =>
    rw [TxsSorted, pairwise_cons] at h
    rw [takeTxs, ih h.2, filter_cons]
    split_ifs with he hg <;> simp_all
    grind

/-- The block comes after the last one that was taken, and so do its transactions. -/
def Fresh (l2Txs : List DSL2Transaction) (s : Cursor) (b : DSL2Block) : Prop :=
  (s.prevL2BlockNumber ≠ 0 → s.prevL2BlockNumber < b.l2BlockNumber) ∧
    ∀ tx ∈ l2Txs.take s.currentL2Tx, tx.l2BlockNumber < b.l2BlockNumber

/-- The block is before the first one that is wanted. -/
def Before (prev : ℕ) (b : DSL2Block) : Prop := prev ≠ 0 ∧ b.l2BlockNumber ≤ prev

variable {prev B : ℕ} {s : Cursor} {b : DSL2Block} {L : List DSL2Block}

lemma txs_of_fresh (ht : TxsSorted l2Txs) (h : Fresh l2Txs s b) : takeTxs b.l2BlockNumber
    (l2Txs.drop s.currentL2Tx) = l2Txs.filter (·.l2BlockNumber = b.l2BlockNumber) := by
  have hn : (l2Txs.take s.currentL2Tx).filter (·.l2BlockNumber = b.l2BlockNumber) = [] := by
    rw [filter_eq_nil_iff]
    intro tx hm
    simpa using Nat.ne_of_lt (h.2 tx hm)
  rw [takeTxs_eq (ht.sublist (drop_sublist _ _))]
  conv_rhs => rw [← take_append_drop s.currentL2Tx l2Txs, filter_append, hn, nil_append]

lemma fresh_next (ht : TxsSorted l2Txs) (h : Fresh l2Txs s b) {c : DSL2Block}
    (hb : b.l2BlockNumber < c.l2BlockNumber) (i : ℕ) :
    Fresh l2Txs ⟨s.currentL2Tx + (takeTxs b.l2BlockNumber (l2Txs.drop s.currentL2Tx)).length, i,
    b.l2BlockNumber⟩ c := by
  refine ⟨fun _ => hb, fun tx hm => ?_⟩
  have hs := ht.sublist (drop_sublist s.currentL2Tx _)
  rw [takeTxs_eq hs, take_add, mem_append] at hm
  rcases hm with hm | hm
  · exact Nat.lt_trans (h.2 tx hm) hb
  · refine Nat.lt_of_le_of_lt (key_le_of_sublist filter_sublist hs (fun y hy => ?_) tx hm) hb
    exact Nat.le_of_eq (by simpa using (mem_filter.mp hy).2)

/-- What the loop over the blocks takes, and where it leaves the cursors. -/
structure Takes (l2Txs : List DSL2Transaction) (prev B : ℕ) (L : List DSL2Block) (s : Cursor)
    (r : Cursor × List DSL2FullBlock) : Prop where
  blocks : r.2 = blocksOf l2Txs L prev B
  prev_le : prev ≤ r.1.prevL2BlockNumber
  cursor : r.1.currentL2Block ≤ s.currentL2Block + (L.takeWhile (·.batchNumber ≤ B)).length
  fresh : ∀ c ∈ L.dropWhile (·.batchNumber ≤ B), Before prev c ∨ Fresh l2Txs r.1 c

lemma Takes.cons {r : Cursor × List DSL2FullBlock} (h : Takes l2Txs prev B L s r)
    (hl : b.batchNumber ≤ B) (hb : Before prev b ∨ b.batchNumber ≠ B) :
    Takes l2Txs prev B (b :: L) s r := by
  have ht : ¬((prev = 0 ∨ prev < b.l2BlockNumber) ∧ b.batchNumber = B) := by
    rintro ⟨hp, hB⟩
    rcases hb with ⟨h0, hw⟩ | hn
    · omega
    · exact hn hB
  refine ⟨?_, h.prev_le, ?_, ?_⟩
  · rw [h.blocks, blocksOf, blocksOf, filter_cons_of_neg (by simpa using ht)]
  · rw [takeWhile_cons_of_pos (by simpa using hl), length_cons]
    have hc := h.cursor
    omega
  · rw [dropWhile_cons_of_pos (by simpa using hl)]
    exact h.fresh

lemma takeBlocks_of_gt (hg : ∀ c ∈ L, B < c.batchNumber) : takeBlocks l2Txs B L s = (s, []) := by
  induction L with
  | nil => rfl
  | cons b L ih =>
    rw [forall_mem_cons] at hg
    rw [takeBlocks, ih hg.2, if_neg (Nat.ne_of_gt hg.1), if_pos hg.1, ite_self]

lemma takes_of_gt (hg : ∀ c ∈ L, B < c.batchNumber) (hp : prev ≤ s.prevL2BlockNumber)
    (hf : ∀ b ∈ L, Before prev b ∨ Fresh l2Txs s b) : Takes l2Txs prev B L s (s, []) := by
  refine ⟨?_, hp, Nat.le_add_right _ _, fun c hc => hf c (dropWhile_subset _ hc)⟩
  rw [blocksOf, filter_eq_nil_iff.mpr, map_nil]
  intro c hc
  have hl := hg c hc
  simp only [decide_eq_true_eq]
  omega

lemma takes_takeBlocks (hx : TxsSorted l2Txs) (hn : BlocksSorted L) (ht : BatchesSorted L)
    (hp : prev ≤ s.prevL2BlockNumber) (hfr : ∀ b ∈ L, Before prev b ∨ Fresh l2Txs s b) : Takes
    l2Txs prev B L s (takeBlocks l2Txs B L s) := by
  induction L generalizing s with
  | nil => exact ⟨rfl, hp, Nat.le_add_right _ _, nofun⟩
  | cons b L ih =>
    by_cases hg : B < b.batchNumber
    · have ha : ∀ c ∈ b :: L, B < c.batchNumber := forall_mem_cons.mpr
        ⟨hg, fun c hc => Nat.lt_of_lt_of_le hg (rel_of_pairwise_cons ht hc)⟩
      rw [takeBlocks_of_gt ha]
      exact takes_of_gt ha hp hfr
    rw [BlocksSorted, pairwise_cons] at hn
    rw [BatchesSorted, pairwise_cons] at ht
    rw [forall_mem_cons] at hfr
    rw [takeBlocks]
    split_ifs with hs he
    · refine (ih hn.2 ht.2 hp hfr.2).cons (Nat.le_of_not_lt hg) (.inl ?_)
      exact hfr.1.resolve_right fun hf => absurd (hf.1 hs.1) (by omega)
    · have hf := hfr.1.resolve_left fun hb => hs ⟨by have := hb.1; omega, by have := hb.2; omega⟩
      have hab : prev = 0 ∨ prev < b.l2BlockNumber := by have := hf.1; omega
      have hr := ih (s := ⟨_, s.currentL2Block + 1, b.l2BlockNumber⟩) hn.2 ht.2
        (by simp only; omega) fun c hc => .inr (fresh_next hx hf (hn.1 c hc) _)
      refine ⟨?_, hr.prev_le, ?_, ?_⟩
      · rw [blocksOf, filter_cons_of_pos (by simpa using ⟨hab, he⟩), map_cons, ← blocksOf,
          ← hr.blocks, txs_of_fresh hx hf]
      · have hcr := hr.cursor
        rw [takeWhile_cons_of_pos (by simpa using Nat.le_of_not_lt hg), length_cons]
        simp only at hcr ⊢
        omega
      · rw [dropWhile_cons_of_pos (by simpa using Nat.le_of_not_lt hg)]
        exact hr.fresh
    · exact (ih hn.2 ht.2 hp hfr.2).cons (Nat.le_of_not_lt hg) (.inr he)

lemma takeBlocks_append {X : List DSL2Block} (hX : ∀ b ∈ X, Before prev b ∨ b.batchNumber < B)
    (hp : prev ≤ s.prevL2BlockNumber) : takeBlocks l2Txs B (X ++ L) s = takeBlocks l2Txs B L s := by
  induction X with
  | nil => rfl
  | cons b X ih =>
    rw [forall_mem_cons] at hX
    rw [cons_append, takeBlocks, ih hX.2]
    rcases hX.1 with ⟨hn, he⟩ | hl
    · rw [if_pos ⟨by omega, by omega⟩]
    · rw [if_neg (Nat.ne_of_lt hl), if_neg (Nat.not_lt_of_gt hl), ite_self]

lemma takeBatches_eq (pre : List DSL2Block) {post : List DSL2Block} {bs : List DSBatch}
    (hx : TxsSorted l2Txs) (hn : BlocksSorted post) (ha : BatchesSorted post)
    (hbt : bs.Pairwise (·.batchNumber < ·.batchNumber)) (hpr : prev ≤ s.prevL2BlockNumber)
    (hcr : s.currentL2Block ≤ pre.length)
    (hp : ∀ b ∈ pre, Before prev b ∨ ∀ batch ∈ bs, b.batchNumber < batch.batchNumber)
    (hf : ∀ b ∈ post, Before prev b ∨ Fresh l2Txs s b) : takeBatches l2Txs (pre ++ post) bs s =
    bs.map fun batch => ⟨batch, blocksOf l2Txs post prev batch.batchNumber⟩ := by
  induction bs generalizing s pre post with
  | nil => rfl
  | cons batch bs ih =>
    rw [pairwise_cons] at hbt
    have hX : ∀ b ∈ pre.drop s.currentL2Block, Before prev b ∨ b.batchNumber < batch.batchNumber :=
      fun b hb => (hp b (drop_subset _ _ hb)).imp_right fun h => h batch mem_cons_self
    have ht := takes_takeBlocks (B := batch.batchNumber) hx hn ha hpr hf
    rw [takeBatches, drop_append_of_le_length hcr, takeBlocks_append hX hpr, map_cons, ht.blocks]
    generalize takeBlocks l2Txs batch.batchNumber post s = r at ht
    congr 1
    -- the blocks up to the batch are behind the cursors now
    have hs := takeWhile_append_dropWhile (p := (·.batchNumber ≤ batch.batchNumber)) (l := post)
    have he : ∀ b ∈ post.takeWhile (·.batchNumber ≤ batch.batchNumber),
        ∀ later ∈ bs, b.batchNumber < later.batchNumber := by
      intro b hb later hl
      have hb' := mem_takeWhile_imp hb
      exact Nat.lt_of_le_of_lt (by simpa using hb') (hbt.1 later hl)
    have hsb := dropWhile_sublist (l := post) (·.batchNumber ≤ batch.batchNumber)
    have hr := ih (pre ++ post.takeWhile (·.batchNumber ≤ batch.batchNumber))
      (hn.sublist hsb) (ha.sublist hsb) hbt.2 ht.prev_le (by
        have hc := ht.cursor
        rw [length_append]
        omega)
      (fun b hb => (mem_append.mp hb).elim (fun hb => (hp b hb).imp_right fun h later hl =>
        h later (mem_cons_of_mem _ hl)) fun hb => .inr (he b hb)) ht.fresh
    rw [append_assoc, hs] at hr
    rw [hr]
    refine map_congr_left fun later hl => ?_
    conv_rhs => rw [← hs, blocksOf, filter_append]
    rw [filter_eq_nil_iff.mpr, nil_append, blocksOf]
    intro b hb
    have hlt := he b hb later hl
    simp only [decide_eq_true_eq]
    omega

/-- Every batch gets its blocks after `prev` in order, each with its transactions, if the batch
numbers of the blocks do not decrease. -/
theorem computeFullBatches_eq (bs : List DSBatch) (l2Blocks : List DSL2Block)
    (l2Txs : List DSL2Transaction) (prev : ℕ)
    (hbt : bs.Pairwise (·.batchNumber < ·.batchNumber)) (hnm : BlocksSorted l2Blocks)
    (htx : TxsSorted l2Txs) (hba : BatchesSorted l2Blocks) : computeFullBatches l2Txs l2Blocks bs
    prev = bs.map fun batch => ⟨batch, blocksOf l2Txs l2Blocks prev batch.batchNumber⟩ := by
  refine takeBatches_eq [] htx hnm hba hbt (Nat.le_refl _) (Nat.le_refl _) nofun ?_
  intro b _
  by_cases h : Before prev b
  · exact .inl h
  · refine .inr ⟨fun hne => Nat.lt_of_not_le fun hle => h ⟨hne, hle⟩, nofun⟩

theorem computeFullBatches_eq_two : computeFullBatches [⟨1, 0⟩, ⟨2, 0⟩] [⟨1, 1, 0⟩, ⟨2, 2, 0⟩]
    [⟨1, 0⟩, ⟨2, 0⟩] 1 = [⟨⟨1, 0⟩, []⟩, ⟨⟨2, 0⟩, [⟨⟨2, 2, 0⟩, [⟨2, 0⟩]⟩]⟩] :=
  computeFullBatches_eq _ _ _ 1 (by simp) (by simp [BlocksSorted]) (by simp [TxsSorted])
    (by simp [BatchesSorted])

/-- The first block is of the second batch and the second block of the first one. -/
theorem computeFullBatches_loses_block :
    computeFullBatches [] [⟨2, 1, 0⟩, ⟨1, 2, 0⟩] [⟨1, 0⟩, ⟨2, 0⟩] 0 =
    [⟨⟨1, 0⟩, []⟩, ⟨⟨2, 0⟩, [⟨⟨2, 1, 0⟩, []⟩]⟩] := by decide

end EthdaNode.State.FullBatches
