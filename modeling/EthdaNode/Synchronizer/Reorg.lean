import EthdaNode.State.Batches

/-!
# Reorganizations of L1

`newCheckReorg` walks back over the stored L1 blocks, from the last one, until one of them is
on L1 or is not after the block of the rollup. The first block is compared with a block that
the caller may have, the others with what L1 has under their numbers. Previous blocks are read
by their offset from the end of the table.
-/

namespace EthdaNode.Synchronizer.Reorg

open State List UInt64 Option Bool
open L1InfoTree (zeroHash)
open Sequencer (Hash plainHash zeroCounters)
open Go Go.Outcome

/-! ## The check -/

/-- `etherman.Block`, without its events. -/
structure EthBlock where
  blockNumber : UInt64
  blockHash : Hash
  parentHash : Hash
  deriving DecidableEq

inductive ReorgError where
  | notFound (blockNumber : UInt64)
  | wrongBlock (stored retrieved : UInt64)
  deriving DecidableEq

def getPreviousBlock (db : Db) (offset : ℕ) : Option L1Block := db.blocks.rows[offset]?

def comparedBlock (ethBlockByNumber : UInt64 → Option EthBlock) (block : Option EthBlock)
    (reorgedBlock : L1Block) : Outcome ReorgError EthBlock :=
  match block with
  | some block => ok block
  | none =>
    match ethBlockByNumber reorgedBlock.blockNumber with
    | none => err (.notFound reorgedBlock.blockNumber)
    | some b =>
      if b.blockNumber ≠ reorgedBlock.blockNumber then
        err (.wrongBlock reorgedBlock.blockNumber b.blockNumber)
      else ok b

def isReorged (genesis : UInt64) (block : EthBlock) (reorgedBlock : L1Block) : Bool :=
  (block.blockHash ≠ reorgedBlock.blockHash || block.parentHash ≠ reorgedBlock.parentHash) &&
    genesis < reorgedBlock.blockNumber

/-- How the search ends: with a block that can stay, or with the first block of the table. -/
inductive Searched where
  | found (block : L1Block)
  | noPrevious (block : L1Block)
  deriving DecidableEq

def searchLoop (genesis : UInt64) (ethBlockByNumber : UInt64 → Option EthBlock) (db : Db) :
    ℕ → ℕ → L1Block → Option EthBlock → Outcome ReorgError Searched
  | 0, _, _, _ => .hang
  | fuel + 1, depth, reorgedBlock, block => do
      let block ← comparedBlock ethBlockByNumber block reorgedBlock
      if isReorged genesis block reorgedBlock then
        match getPreviousBlock db (depth + 1) with
        | none => ok (.noPrevious reorgedBlock)
        | some lb => searchLoop genesis ethBlockByNumber db fuel (depth + 1) lb none
      else ok (.found reorgedBlock)

def reorgResult (latestStoredBlock : L1Block) : Searched → Option L1Block
  | .noPrevious block => some block
  | .found block => if latestStoredBlock.blockHash ≠ block.blockHash then some block else none

def newCheckReorg (genesis : UInt64) (ethBlockByNumber : UInt64 → Option EthBlock) (db : Db)
    (latestStoredBlock : L1Block) (syncedBlock : Option EthBlock) :
    Outcome ReorgError (Option L1Block) := do
  let searched ← searchLoop genesis ethBlockByNumber db db.blocks.rows.length 0
    latestStoredBlock syncedBlock
  ok (reorgResult latestStoredBlock searched)

def resetState (db : Db) (blockNumber : UInt64) : Outcome StateError Db :=
  db.resetToL1BlockNumber blockNumber

variable {gen : UInt64} {l1 : UInt64 → Option EthBlock} {db : Db}

def walk (genesis : UInt64) (l1 : UInt64 → Option EthBlock) (block : Option EthBlock)
    (reorgedBlock : L1Block) : List L1Block → Outcome ReorgError Searched
  | [] => do
      let block ← comparedBlock l1 block reorgedBlock
      if isReorged genesis block reorgedBlock then ok (.noPrevious reorgedBlock)
      else ok (.found reorgedBlock)
  | lb :: rest => do
      let block ← comparedBlock l1 block reorgedBlock
      if isReorged genesis block reorgedBlock then walk genesis l1 none lb rest
      else ok (.found reorgedBlock)

variable {b : L1Block} {blk : Option EthBlock}

/-- The offset is the number of rows that were given up. -/
lemma searchLoop_eq_walk (bef : List L1Block) {rest : List L1Block} {fuel : ℕ}
    (hr : db.blocks.rows = bef ++ b :: rest) (hf : rest.length < fuel) :
    searchLoop gen l1 db fuel bef.length b blk = walk gen l1 blk b rest := by
  induction rest generalizing bef b blk fuel with
  | nil =>
    obtain ⟨fuel, rfl⟩ : ∃ n, fuel = n + 1 := Nat.exists_eq_add_one.mpr hf
    have hn : getPreviousBlock db (bef.length + 1) = none := by
      rw [getPreviousBlock, hr]
      simp
    rw [searchLoop, walk, hn]
  | cons c rest ih =>
    obtain ⟨fuel, rfl⟩ : ∃ n, fuel = n + 1 := Nat.exists_eq_add_one.mpr (by omega)
    have hs : getPreviousBlock db (bef.length + 1) = some c := by
      rw [getPreviousBlock, hr]
      simp
    have hrs : searchLoop gen l1 db fuel (bef.length + 1) c none = walk gen l1 none c rest := by
      have hl : (bef ++ [b]).length = bef.length + 1 := length_append
      rw [← hl]
      exact ih (bef ++ [b]) (by rw [hr]; simp) (by simpa using hf)
    rw [searchLoop, walk, hs]
    simp only [hrs]

def onL1 (l1 : UInt64 → Option EthBlock) (b : L1Block) : Bool :=
  (l1 b.blockNumber).any fun e => e.blockHash = b.blockHash ∧ e.parentHash = b.parentHash

def stays (genesis : UInt64) (l1 : UInt64 → Option EthBlock) (b : L1Block) : Bool :=
  onL1 l1 b || b.blockNumber ≤ genesis

variable {e : EthBlock}

lemma isReorged_eq (gen : UInt64) (he : l1 b.blockNumber = some e) :
    isReorged gen e b = !stays gen l1 b := by
  rw [Bool.eq_iff_iff]
  simp only [isReorged, stays, onL1, he, any_some, Bool.and_eq_true, Bool.or_eq_true,
    decide_eq_true_eq, not_eq_true', or_eq_false_iff, decide_eq_false_iff_not,
    UInt64.not_le, not_and_or, ne_eq]

lemma walk_ne_hang (blk : Option EthBlock) (b : L1Block) (rest : List L1Block) :
    walk gen l1 blk b rest ≠ .hang := by
  have hc : ∀ blk b, comparedBlock l1 blk b ≠ .hang := by
    intro blk b
    rw [comparedBlock.eq_def]
    split
    · nofun
    split
    · nofun
    · split_ifs <;> nofun
  induction rest generalizing blk b with
  | nil =>
    rw [walk]
    intro hh
    rcases bind_hang_iff.mp hh with hh | ⟨e, -, hh⟩
    · exact hc blk b hh
    · split_ifs at hh
  | cons c rest ih =>
    rw [walk]
    intro hh
    rcases bind_hang_iff.mp hh with hh | ⟨e, -, hh⟩
    · exact hc blk b hh
    · split_ifs at hh
      exact ih none c hh

lemma walk_eq (he : comparedBlock l1 blk b = ok e) (rest : List L1Block) :
    walk gen l1 blk b rest =
    if isReorged gen e b then
    rest.head?.elim (ok (.noPrevious b)) fun c => walk gen l1 none c rest.tail
    else ok (.found b) := by
  cases rest with
  | nil =>
    rw [walk, he]
    rfl
  | cons c rest =>
    rw [walk, he]
    rfl

lemma comparedBlock_none (he : l1 b.blockNumber = some e)
    (hn : e.blockNumber = b.blockNumber) : comparedBlock l1 none b = ok e := by
  rw [comparedBlock.eq_def]
  dsimp only
  rw [he]
  exact if_neg (not_not.mpr hn)

lemma walk_of_l1 (gen : UInt64) {rest : List L1Block} (hl1 : ∀ c ∈ b :: rest, ∃ e,
    l1 c.blockNumber = some e ∧ e.blockNumber = c.blockNumber) : ∃ src, walk gen l1 none b rest =
    ok src ∧ (∀ c, (b :: rest).find? (stays gen l1) = some c → src = .found c) ∧
    ((b :: rest).find? (stays gen l1) = none → ∃ c ∈ b :: rest, src = .noPrevious c) := by
  induction rest generalizing b with
  | nil =>
    obtain ⟨e, he, hn⟩ := hl1 b mem_cons_self
    rw [walk_eq (comparedBlock_none he hn), isReorged_eq gen he]
    cases hs : stays gen l1 b with
    | true => exact ⟨.found b, rfl, by simp [hs], by simp [hs]⟩
    | false => exact ⟨.noPrevious b, rfl, by simp [hs], fun _ => ⟨b, by simp, rfl⟩⟩
  | cons c rest ih =>
    obtain ⟨e, he, hn⟩ := hl1 b mem_cons_self
    rw [walk_eq (comparedBlock_none he hn), isReorged_eq gen he, find?_cons]
    cases hs : stays gen l1 b with
    | true => exact ⟨.found b, rfl, by simp, by simp⟩
    | false =>
      obtain ⟨src, hw, hf, hnn⟩ := ih fun a ha => hl1 a (mem_cons_of_mem b ha)
      refine ⟨src, hw, hf, fun h => ?_⟩
      obtain ⟨a, ha, hr⟩ := hnn h
      exact ⟨a, mem_cons_of_mem b ha, hr⟩

/-! ## The check in its place -/

/-- A chain of L1, which does not change: `block` is `EthBlockByNumber`. -/
structure L1Chain where
  block : UInt64 → Option EthBlock
  number : ∀ {n b}, block n = some b → b.blockNumber = n
  closed : ∀ {m n}, m ≤ n → (block n).isSome → (block m).isSome

/-- A call of `newCheckReorg`. The block of the caller is the first one that L1 returned from the
last stored block on. A hash belongs to one block. -/
structure Check where
  genesis : UInt64
  l1 : L1Chain
  db : Db
  latestStoredBlock : L1Block
  syncedBlock : Option EthBlock
  isLast : db.blocks.last? = some latestStoredBlock
  synced : ∀ b ∈ syncedBlock, l1.block b.blockNumber = some b ∧
    latestStoredBlock.blockNumber ≤ b.blockNumber
  storedHashes : ∀ a ∈ db.blocks.rows, ∀ b ∈ db.blocks.rows, a.blockHash = b.blockHash →
    a.blockNumber = b.blockNumber
  l1Hashes : ∀ a ∈ db.blocks.rows, ∀ n b, l1.block n = some b → a.blockHash = b.blockHash →
    a.blockNumber = n ∧ a.parentHash = b.parentHash

namespace Check

variable (x : Check)

def result : Outcome ReorgError (Option L1Block) :=
  newCheckReorg x.genesis x.l1.block x.db x.latestStoredBlock x.syncedBlock

def Stays (b : L1Block) : Prop := stays x.genesis x.l1.block b = true

/-- A reorg is found exactly if the last block cannot stay; then the last one that can is returned,
and the reset deletes the blocks after it. -/
def Correct : Prop :=
  (x.result = ok none ↔ x.Stays x.latestStoredBlock) ∧
    (¬ x.Stays x.latestStoredBlock → ∃ b ∈ x.db.blocks.rows, x.Stays b ∧
      (∀ c ∈ x.db.blocks.rows, x.Stays c → c.blockNumber ≤ b.blockNumber) ∧
      x.result = ok (some b) ∧
      ∃ db', resetState x.db b.blockNumber = ok db' ∧
        ∀ c, c ∈ db'.blocks.rows ↔ c ∈ x.db.blocks.rows ∧ c.blockNumber ≤ b.blockNumber)

/-- L1 has the number of the last block if the caller has no block; the block of the caller has this
number if the last block is on L1; some block can stay; and no batch refers to a forced batch after
those that can. -/
def Reliable : Prop :=
  (x.syncedBlock = none → (x.l1.block x.latestStoredBlock.blockNumber).isSome) ∧
    (∀ b ∈ x.syncedBlock, onL1 x.l1.block x.latestStoredBlock →
      x.genesis < x.latestStoredBlock.blockNumber →
      b.blockNumber = x.latestStoredBlock.blockNumber) ∧
    (∃ b ∈ x.db.blocks.rows, x.Stays b) ∧
    (¬ x.Stays x.latestStoredBlock → ∀ batch ∈ x.db.batches.rows,
      ∀ forced ∈ x.db.forcedBatches.rows, batch.forcedBatchNum = some forced.forcedBatchNumber →
      ∃ b ∈ x.db.blocks.rows, x.Stays b ∧ forced.blockNumber ≤ b.blockNumber)

variable {x : Check}

lemma rows_eq (x : Check) : ∃ rest, x.db.blocks.rows = x.latestStoredBlock :: rest :=
  head?_eq_some_iff.mp x.isLast

lemma latest_mem (x : Check) : x.latestStoredBlock ∈ x.db.blocks.rows := Table.last?_mem x.isLast

variable {rest : List L1Block}

lemma result_eq (hr : x.db.blocks.rows = x.latestStoredBlock :: rest) :
    x.result = (do
      let src ← walk x.genesis x.l1.block x.syncedBlock x.latestStoredBlock rest
      ok (reorgResult x.latestStoredBlock src)) := by
  have hl : rest.length < x.db.blocks.rows.length := by simp [hr]
  have hw : searchLoop x.genesis x.l1.block x.db x.db.blocks.rows.length 0 x.latestStoredBlock
    x.syncedBlock = walk x.genesis x.l1.block x.syncedBlock x.latestStoredBlock rest :=
    searchLoop_eq_walk [] hr hl
  rw [result, newCheckReorg, hw]

lemma result_ne_hang (x : Check) : x.result ≠ .hang := by
  obtain ⟨rest, hr⟩ := x.rows_eq
  rw [result_eq hr]
  intro hh
  rcases bind_hang_iff.mp hh with hh | ⟨searched, -, hh⟩
  · exact walk_ne_hang _ _ _ hh
  · cases hh

lemma l1_of_latest (h : (x.l1.block x.latestStoredBlock.blockNumber).isSome) : ∀ c ∈
    x.db.blocks.rows, ∃ e, x.l1.block c.blockNumber = some e ∧ e.blockNumber = c.blockNumber := by
  intro c hc
  have hl : c.blockNumber ≤ x.latestStoredBlock.blockNumber :=
    le_iff_toNat_le.mpr ((Table.last?_eq_some_iff.mp x.isLast).2 c hc)
  obtain ⟨e, he⟩ := isSome_iff_exists.mp (x.l1.closed hl h)
  exact ⟨e, he, x.l1.number he⟩

lemma hash_ne (hr : x.db.blocks.rows = x.latestStoredBlock :: rest)
    {c : L1Block} (hc : c ∈ rest) : x.latestStoredBlock.blockHash ≠ c.blockHash := by
  intro hh
  have hs := x.db.blocks.sorted
  rw [hr] at hs
  have hl : c.key < x.latestStoredBlock.key := rel_of_pairwise_cons hs hc
  have hm : c ∈ x.db.blocks.rows := hr ▸ mem_cons_of_mem _ hc
  have hn := x.storedHashes _ x.latest_mem c hm hh
  rw [L1Block.key, L1Block.key, hn] at hl
  exact lt_irrefl _ hl

variable {e : EthBlock}

lemma result_of_kept (he : comparedBlock x.l1.block x.syncedBlock x.latestStoredBlock = ok e)
    (hk : isReorged x.genesis e x.latestStoredBlock = false) : x.result = ok none := by
  obtain ⟨rest, hr⟩ := x.rows_eq
  rw [result_eq hr, walk_eq he, hk]
  simp [reorgResult]

lemma result_of_reorged (hr : x.db.blocks.rows = x.latestStoredBlock :: rest)
    (he : comparedBlock x.l1.block x.syncedBlock x.latestStoredBlock = ok e)
    (hl1 : (x.l1.block x.latestStoredBlock.blockNumber).isSome)
    (hrr : isReorged x.genesis e x.latestStoredBlock = true) : x.result ≠ ok none ∧ ∀ b, rest.find?
    (stays x.genesis x.l1.block) = some b → x.result = ok (some b) := by
  rw [result_eq hr, walk_eq he, hrr, if_pos rfl]
  rcases hs : rest with _ | ⟨c, cs⟩
  · exact ⟨nofun, nofun⟩
  subst hs
  have hn := l1_of_latest hl1
  rw [hr] at hn
  obtain ⟨src, hw, hd, hnn⟩ := walk_of_l1 x.genesis fun a ha => hn a (mem_cons_of_mem _ ha)
  have ht : ∀ b ∈ c :: cs, reorgResult x.latestStoredBlock (.found b) = some b := fun b hb =>
    if_pos (hash_ne hr hb)
  rw [head?_cons, elim_some, tail_cons, hw, ok_bind]
  rcases hf : (c :: cs).find? (stays x.genesis x.l1.block) with _ | b
  · obtain ⟨b, -, rfl⟩ := hnn hf
    exact ⟨nofun, nofun⟩
  obtain rfl := hd b hf
  rw [ht b (mem_of_find?_eq_some hf)]
  refine ⟨nofun, fun b' hb' => ?_⟩
  rw [Option.some.inj hb']

lemma compared_latest (hl1 : (x.l1.block x.latestStoredBlock.blockNumber).isSome) : ∃ e,
    comparedBlock x.l1.block x.syncedBlock x.latestStoredBlock = ok e ∧ x.l1.block e.blockNumber =
    some e ∧ (x.syncedBlock = none → e.blockNumber = x.latestStoredBlock.blockNumber) ∧ ∀ b ∈
    x.syncedBlock, b = e := by
  cases hs : x.syncedBlock with
  | some b => exact ⟨b, rfl, (x.synced b (by simp [hs])).1, nofun, by simp⟩
  | none =>
    obtain ⟨e, he⟩ := isSome_iff_exists.mp hl1
    have hn := x.l1.number he
    refine ⟨e, comparedBlock_none he hn, ?_, fun _ => hn, nofun⟩
    rw [hn]
    exact he

lemma isReorged_of_not_stays (he : x.l1.block e.blockNumber = some e)
    (hs : ¬ x.Stays x.latestStoredBlock) : isReorged x.genesis e x.latestStoredBlock = true := by
  have hn : onL1 x.l1.block x.latestStoredBlock = false ∧
      x.genesis < x.latestStoredBlock.blockNumber := by
    simpa [Stays, stays, UInt64.not_le] using hs
  rw [isReorged, and_eq_true, or_eq_true, decide_eq_true_eq, decide_eq_true_eq]
  refine ⟨.inl fun hh => ?_, decide_eq_true hn.2⟩
  obtain ⟨hm, hp⟩ := x.l1Hashes _ x.latest_mem _ e he hh.symm
  have ho : onL1 x.l1.block x.latestStoredBlock = true := by
    rw [onL1, hm, he]
    simp [hh, hp]
  rw [hn.1] at ho
  cases ho

lemma resetState_ok_iff {blkNum : UInt64} : (∃ db', resetState x.db blkNum = ok db' ∧ ∀ c,
    c ∈ db'.blocks.rows ↔ c ∈ x.db.blocks.rows ∧ c.blockNumber ≤ blkNum) ↔
    ∀ batch ∈ x.db.batches.rows, ∀ forced ∈ x.db.forcedBatches.rows, batch.forcedBatchNum =
    some forced.forcedBatchNumber → forced.blockNumber ≤ blkNum := by
  rw [resetState, Db.resetToL1BlockNumber]
  split_ifs with ha
  · refine iff_of_false (by simp) fun hal => ?_
    obtain ⟨batch, hb, ha⟩ := any_eq_true.mp ha
    obtain ⟨forced, hf, hr⟩ := any_eq_true.mp ha
    obtain ⟨hn, hl⟩ := of_decide_eq_true hr
    exact absurd (hal batch hb forced hf hn) (UInt64.not_le.mpr hl)
  refine iff_of_true ⟨_, rfl, fun c => ?_⟩ fun batch hb forced hf hn => ?_
  · refine mem_filter.trans (and_congr_right fun _ => ?_)
    rw [decide_eq_true_eq, le_iff_toNat_le]
    rfl
  by_contra hle
  refine ha (any_eq_true.mpr ⟨batch, hb, any_eq_true.mpr
    ⟨forced, hf, decide_eq_true ⟨hn, UInt64.not_le.mp hle⟩⟩⟩)

lemma correct_iff_of_notFound (hl1 : ¬ (x.l1.block x.latestStoredBlock.blockNumber).isSome) :
    x.Correct ↔ x.Reliable := by
  obtain ⟨rest, hw⟩ := x.rows_eq
  have hn : x.l1.block x.latestStoredBlock.blockNumber = none := by simpa using hl1
  have hs : x.syncedBlock = none := by
    cases hs : x.syncedBlock with
    | none => rfl
    | some b =>
      obtain ⟨hb, hl⟩ := x.synced b hs
      exact absurd (x.l1.closed hl (by simp [hb])) hl1
  have he : x.result = err (.notFound x.latestStoredBlock.blockNumber) := by
    have hm : comparedBlock x.l1.block x.syncedBlock x.latestStoredBlock =
        err (.notFound x.latestStoredBlock.blockNumber) := by
      rw [hs, comparedBlock.eq_def]
      dsimp only
      rw [hn]
    rw [result_eq hw]
    cases rest with
    | _ => rw [walk, hm, err_bind, err_bind]
  refine iff_of_false (fun hc => ?_) fun hr => hl1 (hr.1 hs)
  by_cases ht : x.Stays x.latestStoredBlock
  · have ho := hc.1.mpr ht
    rw [he] at ho
    cases ho
  obtain ⟨b, -, -, -, ho, -⟩ := hc.2 ht
  rw [he] at ho
  cases ho

/-- The last block can stay but is given up: the block of the caller has another number. -/
lemma not_reliable_of_reorged (ho : x.l1.block e.blockNumber = some e)
    (hn : x.syncedBlock = none → e.blockNumber = x.latestStoredBlock.blockNumber)
    (hc : ∀ b ∈ x.syncedBlock, b = e) (hs : x.Stays x.latestStoredBlock)
    (hr : isReorged x.genesis e x.latestStoredBlock = true) : ¬ x.Reliable := by
  intro hl
  have hg : x.genesis < x.latestStoredBlock.blockNumber :=
    of_decide_eq_true (and_eq_true_iff.mp hr).2
  have hsm : e.blockNumber = x.latestStoredBlock.blockNumber := by
    rcases hy : x.syncedBlock with _ | b
    · exact hn hy
    have hm : b ∈ x.syncedBlock := hy
    obtain rfl := hc b hm
    refine hl.2.1 b hm ?_ hg
    rcases or_eq_true_iff.mp hs with ho | he
    · exact ho
    · exact absurd (of_decide_eq_true he) (UInt64.not_le.mpr hg)
  rw [hsm] at ho
  rw [isReorged_eq x.genesis ho, not_eq_true'] at hr
  exact absurd hs (by rw [Stays, hr]; exact false_ne_true)

lemma correct_iff_of_stays (hl1 : (x.l1.block x.latestStoredBlock.blockNumber).isSome)
    (hs : x.Stays x.latestStoredBlock) : x.Correct ↔ x.Reliable := by
  obtain ⟨rest, hw⟩ := x.rows_eq
  obtain ⟨e, he, ho, hn, hc⟩ := compared_latest hl1
  cases hr : isReorged x.genesis e x.latestStoredBlock with
  | false =>
    refine iff_of_true ⟨iff_of_true (result_of_kept he hr) hs, absurd hs⟩
      ⟨fun _ => hl1, fun b hb _ hg => ?_, ⟨_, x.latest_mem, hs⟩, absurd hs⟩
    obtain rfl := hc b hb
    have hh : b.blockHash = x.latestStoredBlock.blockHash := by
      by_contra hne
      simp [isReorged, hne, hg] at hr
    exact (x.l1Hashes _ x.latest_mem _ b ho hh.symm).1.symm
  | true =>
    refine iff_of_false (fun hcr => ?_) (not_reliable_of_reorged ho hn hc hs hr)
    exact (result_of_reorged hw he hl1 hr).1 (hcr.1.mpr hs)

lemma correct_iff_of_not_stays (hl1 : (x.l1.block x.latestStoredBlock.blockNumber).isSome)
    (hs : ¬ x.Stays x.latestStoredBlock) : x.Correct ↔ x.Reliable := by
  obtain ⟨rest, hw⟩ := x.rows_eq
  obtain ⟨e, he, ho, hu, hcl⟩ := compared_latest hl1
  obtain ⟨hsm, hre⟩ := result_of_reorged hw he hl1 (isReorged_of_not_stays ho hs)
  have hfn : x.db.blocks.rows.find? (stays x.genesis x.l1.block) =
      rest.find? (stays x.genesis x.l1.block) := by
    rw [hw, find?_cons_of_neg hs]
  rcases hrs : rest.find? (stays x.genesis x.l1.block) with _ | b
  · have hnn : ∀ b ∈ x.db.blocks.rows, ¬ x.Stays b := find?_eq_none.mp (hfn.trans hrs)
    refine iff_of_false (fun hr => ?_) fun hl => ?_
    · obtain ⟨b, hb, hy, -⟩ := hr.2 hs
      exact hnn b hb hy
    · obtain ⟨b, hb, hy⟩ := hl.2.2.1
      exact hnn b hb hy
  have hb := hfn.trans hrs
  have hm : b ∈ x.db.blocks.rows := mem_of_find?_eq_some hb
  have hy : x.Stays b := find?_some hb
  have hg : ∀ c ∈ x.db.blocks.rows, x.Stays c → c.blockNumber ≤ b.blockNumber := by
    intro c hc hs
    have hle : c.key ≤ b.key := Table.key_le_of_find?_rows hb hc hs
    exact le_iff_toNat_le.mpr hle
  constructor
  · intro hr
    obtain ⟨a, ha, hA, -, -, hrt⟩ := hr.2 hs
    refine ⟨fun _ => hl1, fun _ _ honL1 _ => ?_, ⟨b, hm, hy⟩, ?_⟩
    · exact absurd (or_eq_true_iff.mpr (.inl honL1)) hs
    · intro _ batch ht forced hf hn
      exact ⟨a, ha, hA, resetState_ok_iff.mp hrt batch ht forced hf hn⟩
  · intro hl
    refine ⟨iff_of_false hsm hs, fun _ => ⟨b, hm, hy, hg, hre b hrs, resetState_ok_iff.mpr ?_⟩⟩
    intro batch ht forced hf hn
    obtain ⟨c, hc, hC, hle⟩ := hl.2.2.2 hs batch ht forced hf hn
    exact UInt64.le_trans hle (hg c hc hC)

/-- `newCheckReorg` always ends, and what it returns is right exactly if the check can be relied
on. -/
theorem newCheckReorg_correct_iff (x : Check) : x.result ≠ .hang ∧ (x.Correct ↔ x.Reliable) := by
  refine ⟨x.result_ne_hang, ?_⟩
  by_cases hl1 : (x.l1.block x.latestStoredBlock.blockNumber).isSome
  · by_cases hs : x.Stays x.latestStoredBlock
    · exact correct_iff_of_stays hl1 hs
    · exact correct_iff_of_not_stays hl1 hs
  · exact correct_iff_of_notFound hl1

end Check

/-! ## Checks that go wrong -/

def chainOf (hashes : List Hash) : L1Chain where
  block := fun n => hashes[n.toNat]?.map fun hash =>
    ⟨n, hash, (hashes[n.toNat - 1]?).getD zeroHash⟩
  number := by
    intro n b hb
    obtain ⟨hash, -, rfl⟩ := map_eq_some_iff.mp hb
    rfl
  closed := by
    intro m n hle hsome
    rw [isSome_map, isSome_getElem?] at hsome ⊢
    exact lt_of_le_of_lt (le_iff_toNat_le.mp hle) hsome

lemma l1Hashes_chainOf {hah : List Hash} {rows : List L1Block} (h : ∀ a ∈ rows,
    ∀ i ∈ List.range hah.length, hah[i]? = some a.blockHash → a.blockNumber.toNat = i ∧
    a.parentHash = (hah[i - 1]?).getD zeroHash) : ∀ a ∈ rows, ∀ n b, (chainOf hah).block n =
    some b → a.blockHash = b.blockHash → a.blockNumber = n ∧ a.parentHash = b.parentHash := by
  intro a ha n b hb hh
  obtain ⟨hash, hg, rfl⟩ := map_eq_some_iff.mp hb
  rw [show hash = a.blockHash from hh.symm] at hg
  have hl : n.toNat < hah.length := (List.getElem?_eq_some_iff.mp hg).1
  obtain ⟨hn, hp⟩ := h a ha n.toNat (mem_range.mpr hl) hg
  exact ⟨UInt64.toNat_inj.mp hn, hp⟩

def plainHashes (n : ℕ) : List Hash := (List.range n).map fun i => plainHash (UInt8.ofNat i)

def storedBlock (number : UInt64) (hash parent : UInt8) : L1Block :=
  ⟨number, plainHash hash, plainHash parent, 0⟩

def threeBlocks : Db where
  blocks := ⟨[storedBlock 5 5 4, storedBlock 3 3 2, storedBlock 1 1 0], by decide⟩
  batches := .empty
  l2Blocks := .empty
  virtualBatches := .empty
  sequences := .empty
  forcedBatches := .empty

def forcedRow : BatchRow where
  batchNumber := 1
  coinbase := .zero
  batchL2Data := []
  stateRoot := zeroHash
  localExitRoot := zeroHash
  accInputHash := zeroHash
  timestamp := 0
  globalExitRoot := zeroHash
  forcedBatchNum := some 1
  resources := ⟨zeroCounters, 0⟩
  highReservedZKCounters := zeroCounters
  wip := false

/-- Another block 5 is stored, with forced batch 1. -/
def reorgedBlocks : Db :=
  { threeBlocks with
    blocks := ⟨[storedBlock 5 55 4, storedBlock 3 3 2, storedBlock 1 1 0], by decide⟩
    batches := .single forcedRow
    forcedBatches := .single ⟨5, 1, .zero, zeroHash, [], 0⟩ }

/-- Block 5 has no events, so that the caller has block 6. -/
def laterBlock : Check where
  genesis := 1
  l1 := chainOf (plainHashes 7)
  db := threeBlocks
  latestStoredBlock := storedBlock 5 5 4
  syncedBlock := some ⟨6, plainHash 6, plainHash 5⟩
  isLast := rfl
  synced := by decide +kernel
  storedHashes := by decide +kernel
  l1Hashes := l1Hashes_chainOf (by decide +kernel)

def shorterChain : Check where
  genesis := 1
  l1 := chainOf (plainHashes 5)
  db := threeBlocks
  latestStoredBlock := storedBlock 5 5 4
  syncedBlock := none
  isLast := rfl
  synced := nofun
  storedHashes := by decide +kernel
  l1Hashes := l1Hashes_chainOf (by decide +kernel)

/-- Block 5 was replaced; a batch refers to its forced batch. -/
def replacedBlock : Check where
  genesis := 1
  l1 := chainOf (plainHashes 7)
  db := reorgedBlocks
  latestStoredBlock := storedBlock 5 55 4
  syncedBlock := none
  isLast := rfl
  synced := nofun
  storedHashes := by decide +kernel
  l1Hashes := l1Hashes_chainOf (by decide +kernel)

/-- A reorg is reported although all blocks are on L1; one to a shorter chain is not found; the
reset fails. -/
theorem newCheckReorg_wrong :
    ((∀ b ∈ laterBlock.db.blocks.rows, onL1 laterBlock.l1.block b = true) ∧
    laterBlock.result = ok (some (storedBlock 3 3 2)) ∧ ¬ laterBlock.Correct) ∧
    (shorterChain.result = err (.notFound 5) ∧ ¬ shorterChain.Correct) ∧
    replacedBlock.result = ok (some (storedBlock 3 3 2)) ∧
    (∀ db', resetState replacedBlock.db 3 ≠ ok db') ∧ ¬ replacedBlock.Correct := by
  have hl : laterBlock.result = ok (some (storedBlock 3 3 2)) := by decide +kernel
  have hsh : shorterChain.result = err (.notFound 5) := by decide +kernel
  have hrp : replacedBlock.result = ok (some (storedBlock 3 3 2)) := by decide +kernel
  have hrs : ∀ db', resetState replacedBlock.db 3 ≠ ok db' := by
    intro db' hok
    have hn : (resetState replacedBlock.db 3).any (fun _ => true) = false := by decide +kernel
    rw [hok] at hn
    cases hn
  refine ⟨⟨by decide +kernel, hl, fun hc => ?_⟩, ⟨hsh, fun hc => ?_⟩,
    hrp, hrs, fun hc => ?_⟩
  · have hst : stays laterBlock.genesis laterBlock.l1.block laterBlock.latestStoredBlock =
        true := by decide +kernel
    have hok := hc.1.mpr hst
    rw [hl] at hok
    cases hok
  · have hst : stays shorterChain.genesis shorterChain.l1.block
        shorterChain.latestStoredBlock = false := by decide +kernel
    obtain ⟨b, -, -, -, hok, -⟩ := hc.2 (by simp [Check.Stays, hst])
    rw [hsh] at hok
    cases hok
  have hst : stays replacedBlock.genesis replacedBlock.l1.block
      replacedBlock.latestStoredBlock = false := by decide +kernel
  obtain ⟨b, -, -, -, hok, db', hdb', -⟩ := hc.2 (by simp [Check.Stays, hst])
  rw [hrp] at hok
  cases hok
  exact hrs db' hdb'

end EthdaNode.Synchronizer.Reorg
