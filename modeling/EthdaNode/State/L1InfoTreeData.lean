import EthdaNode.L1InfoTree.Cache
import EthdaNode.State.Executor
import EthdaNode.Support.GoMap

/-!
# The exit roots of a batch

`GetL1InfoTreeDataFromBatchL2Data` reads the exit roots that the L2 blocks of a batch use. `query`
is the answer of the database for an index.
-/

namespace EthdaNode.State

open Go Go.Outcome List
open L1InfoTree (Entry zeroHash)
open Sequencer (Hash plainHash)

variable (query : UInt32 → Except GoError (Option Entry)) (blocks earlier : List L2BlockRaw)

def getL1InfoRootLeafByIndex (l1InfoTreeIndex : UInt32) : Outcome GoError Entry := do
  let entry ← ofExcept id (query l1InfoTreeIndex)
  ok (entry.getD ⟨⟨zeroHash, zeroHash, 0 - 62135596800⟩, zeroHash, 0⟩)

def findMax (maxIndex : UInt32) : UInt32 :=
  blocks.foldl (fun maxIndex b =>
    if b.indexL1InfoTree > maxIndex then b.indexL1InfoTree else maxIndex) maxIndex

def addL1Data (l1InfoTreeData : GoMap UInt32 L1DataV2) (block : L2BlockRaw) :
    Outcome GoError (GoMap UInt32 L1DataV2) :=
  if block.indexL1InfoTree > 0 ∧ block.indexL1InfoTree ∉ l1InfoTreeData then do
    let entry ← getL1InfoRootLeafByIndex query block.indexL1InfoTree
    ok (l1InfoTreeData.insert block.indexL1InfoTree
      ⟨entry.leaf.globalExitRoot, entry.leaf.previousBlockHash, entry.leaf.timestamp⟩)
  else ok l1InfoTreeData

def getL1InfoTreeData : List L2BlockRaw → Outcome GoError (GoMap UInt32 L1DataV2 × Hash × Hash)
  | [] => ok (∅, zeroHash, zeroHash)
  | first :: rest => do
    let maxIndex := findMax (first :: rest) first.indexL1InfoTree
    let entry ← getL1InfoRootLeafByIndex query maxIndex
    let maxGER := if maxIndex = 0 then zeroHash else entry.leaf.globalExitRoot
    let l1InfoTreeData ← (first :: rest).foldlM (addL1Data query) ∅
    ok (l1InfoTreeData, entry.l1InfoTreeRoot, maxGER)

def getL1InfoTreeDataFromBatchL2Data (geth : GoEthereum) (batchL2Data : GoBytes) :
    Outcome GoError (GoMap UInt32 L1DataV2 × Hash × Hash) := do
  let batchRaw ← decodeBatchV2 geth batchL2Data
  getL1InfoTreeData query batchRaw.blocks

/-- The keys are the indices in use, and the root is the one stored for the largest of them. -/
structure Indexed (data : GoMap UInt32 L1DataV2) (root : Hash) : Prop where
  keys : ∀ i, i ∈ data ↔ i ≠ 0 ∧ ∃ b ∈ blocks, b.indexL1InfoTree = i
  largest : ∀ i ∈ data, (∀ j ∈ data, j ≤ i) → ∃ e, query i = .ok (some e) ∧ root = e.l1InfoTreeRoot
  unused : (∀ b ∈ blocks, b.indexL1InfoTree = 0) → root = zeroHash

variable {query earlier} {data data' : GoMap UInt32 L1DataV2} {m i : UInt32}

lemma findMax_spec : m ≤ findMax earlier m ∧
    (∀ b ∈ earlier, b.indexL1InfoTree ≤ findMax earlier m) ∧
    (findMax earlier m = m ∨ ∃ b ∈ earlier, b.indexL1InfoTree = findMax earlier m) := by
  induction earlier generalizing m with
  | nil => simp [findMax]
  | cons b bs ih =>
    rw [findMax, foldl_cons]
    split_ifs with hlt
    · have := @ih b.indexL1InfoTree
      grind [findMax]
    · have := @ih m
      grind [findMax]

lemma mem_foldlM_addL1Data (h : earlier.foldlM (addL1Data query) data = ok data') :
    i ∈ data' ↔ i ∈ data ∨ i ≠ 0 ∧ ∃ b ∈ earlier, b.indexL1InfoTree = i := by
  induction earlier generalizing data with
  | nil => simp_all
  | cons b bs ih =>
    rw [foldlM_cons] at h
    obtain ⟨next, hnx, h⟩ := ok_of_bind h
    rw [ih h]
    rw [addL1Data] at hnx
    split_ifs at hnx with hnw
    · obtain ⟨entry, -, hnx⟩ := ok_of_bind hnx
      cases hnx
      grind [AList.mem_insert]
    · cases hnx
      grind

/-- What the function has to return when the batch can be decoded. -/
def RightData (query : UInt32 → Except GoError (Option Entry)) (geth : GoEthereum)
    (batchL2Data : GoBytes) : Prop :=
  ∀ batchRaw data root maxGER, decodeBatchV2 geth batchL2Data = ok batchRaw →
    getL1InfoTreeDataFromBatchL2Data query geth batchL2Data = ok (data, root, maxGER) →
    Indexed query batchRaw.blocks data root

/-- The loop returns the data exactly if no row that it reads is refused. -/
lemma foldlM_addL1Data_ok_iff (hdata : ∀ i ∈ data, ∃ row, query i = .ok row) :
    (∃ data', earlier.foldlM (addL1Data query) data = ok data') ↔
      ∀ b ∈ earlier, b.indexL1InfoTree ≠ 0 → ∃ row, query b.indexL1InfoTree = .ok row := by
  induction earlier generalizing data with
  | nil => simp
  | cons b bs ih =>
    rw [foldlM_cons, addL1Data, forall_mem_cons]
    split_ifs with hnew
    · have hne := UInt32.pos_iff_ne_zero.mp hnew.1
      rcases hrow : query b.indexL1InfoTree with e | row
      · simp [getL1InfoRootLeafByIndex, hrow, hne, Outcome.ofExcept]
      simp only [getL1InfoRootLeafByIndex, hrow, ofExcept_ok, ok_bind]
      rw [ih]
      · simp
      · grind [AList.mem_insert]
    · rw [ok_bind, ih hdata]
      have hpos := @UInt32.pos_iff_ne_zero b.indexL1InfoTree
      grind

lemma findMax_eq_of_largest {first top : L2BlockRaw} {rest : List L2BlockRaw}
    (ht : top ∈ first :: rest)
    (hle : ∀ b ∈ first :: rest, b.indexL1InfoTree ≤ top.indexL1InfoTree) :
    findMax (first :: rest) first.indexL1InfoTree = top.indexL1InfoTree := by
  obtain ⟨-, hmax, hmem⟩ := @findMax_spec (first :: rest) first.indexL1InfoTree
  obtain ⟨b, hb, heq⟩ := hmem.elim (fun h => ⟨first, mem_cons_self, h.symm⟩) id
  exact UInt32.le_antisymm (heq ▸ hle b hb) (hmax top ht)

lemma indexed_iff_of_largest {top : L2BlockRaw} {entry : Entry}
    (hf : earlier.foldlM (addL1Data query) ∅ = ok data) (ht : top ∈ earlier)
    (hle : ∀ b ∈ earlier, b.indexL1InfoTree ≤ top.indexL1InfoTree)
    (hentry : getL1InfoRootLeafByIndex query top.indexL1InfoTree = ok entry) :
    Indexed query earlier data entry.l1InfoTreeRoot ↔
      if top.indexL1InfoTree = 0 then ∀ e, query 0 = .ok (some e) → e.l1InfoTreeRoot = zeroHash
      else query top.indexL1InfoTree ≠ .ok none := by
  have hk : ∀ i, i ∈ data ↔ i ≠ 0 ∧ ∃ b ∈ earlier, b.indexL1InfoTree = i :=
    fun i => by simpa using mem_foldlM_addL1Data (i := i) hf
  obtain ⟨row, hrow, hentry⟩ := ok_of_bind hentry
  cases hentry
  rw [ofExcept_ok_iff] at hrow
  split_ifs with hz
  · -- No index is in use, so the root has to be the zero hash.
    have hall : ∀ b ∈ earlier, b.indexL1InfoTree = 0 :=
      fun b hb => UInt32.le_zero_iff.mp (hz ▸ hle b hb)
    rw [hz] at hrow
    constructor
    · intro hx e he
      rw [he] at hrow
      cases hrow
      exact hx.unused hall
    refine fun hzero => ⟨hk, fun i hi => ?_, fun _ => ?_⟩
    · obtain ⟨hi, b, hb, rfl⟩ := (hk i).mp hi
      exact absurd (hall b hb) hi
    · cases row with
      | none => rfl
      | some e => exact hzero e hrow
  have htop := (hk _).mpr ⟨hz, top, ht, rfl⟩
  constructor
  · intro hx hno
    obtain ⟨e, he, -⟩ := hx.largest _ htop fun j hj => by
      obtain ⟨-, b, hb, rfl⟩ := (hk j).mp hj
      exact hle b hb
    rw [he] at hno
    cases hno
  refine fun hstored => ⟨hk, fun i hi hmx => ?_, fun hall => absurd (hall top ht) hz⟩
  obtain ⟨-, b, hb, rfl⟩ := (hk i).mp hi
  rw [UInt32.le_antisymm (hle b hb) (hmx _ htop)]
  cases row with
  | none => exact absurd hrow hstored
  | some e => exact ⟨e, hrow, rfl⟩

/-- The function is right exactly if the row of the largest index in use is there, or the row of
index 0, when no other one is in use, has the zero root; or if a row that it reads is refused. -/
theorem rightData_iff {geth : GoEthereum} {batchL2Data : GoBytes} :
    RightData query geth batchL2Data ↔ ∀ batchRaw, decodeBatchV2 geth batchL2Data = ok batchRaw →
      ∀ top ∈ batchRaw.blocks,
        (∀ b ∈ batchRaw.blocks, b.indexL1InfoTree ≤ top.indexL1InfoTree) →
        (∀ b ∈ batchRaw.blocks, b.indexL1InfoTree ≠ 0 ∨ b.indexL1InfoTree = top.indexL1InfoTree →
          ∃ row, query b.indexL1InfoTree = .ok row) →
        if top.indexL1InfoTree = 0 then ∀ e, query 0 = .ok (some e) → e.l1InfoTreeRoot = zeroHash
        else query top.indexL1InfoTree ≠ .ok none := by
  constructor
  · intro h batchRaw hd top ht hle hok
    obtain ⟨first, rest, hblocks⟩ := exists_cons_of_ne_nil (ne_nil_of_mem ht)
    obtain ⟨row, hrow⟩ := hok top ht (.inr rfl)
    obtain ⟨entry, hentry⟩ :
        ∃ entry, getL1InfoRootLeafByIndex query top.indexL1InfoTree = ok entry := by
      rw [getL1InfoRootLeafByIndex, hrow]
      exact ⟨_, rfl⟩
    obtain ⟨data, hdata⟩ : ∃ data, batchRaw.blocks.foldlM (addL1Data query) ∅ = ok data :=
      (foldlM_addL1Data_ok_iff (by simp)).mpr fun b hb hne => hok b hb (.inl hne)
    exact (indexed_iff_of_largest hdata ht hle hentry).mp (h batchRaw data _ _ hd (by
      rw [getL1InfoTreeDataFromBatchL2Data, hd, ok_bind, hblocks, getL1InfoTreeData,
        findMax_eq_of_largest (hblocks ▸ ht) (hblocks ▸ hle), hentry, ← hblocks, hdata]
      rfl))
  intro h batchRaw data root maxGER hd hget
  rw [getL1InfoTreeDataFromBatchL2Data, hd, ok_bind] at hget
  rcases hbl : batchRaw.blocks with _ | ⟨first, rest⟩
  · rw [hbl, getL1InfoTreeData] at hget
    cases hget
    exact ⟨by simp, by simp, fun _ => rfl⟩
  rw [hbl, getL1InfoTreeData] at hget
  obtain ⟨entry, hentry, hget⟩ := ok_of_bind hget
  obtain ⟨_, hf, hget⟩ := ok_of_bind hget
  cases hget
  obtain ⟨-, hle, hmem⟩ := @findMax_spec (first :: rest) first.indexL1InfoTree
  obtain ⟨top, ht, heq⟩ := hmem.elim (fun h => ⟨first, mem_cons_self, h.symm⟩) id
  rw [← heq] at hentry hle
  obtain ⟨row, hrow, -⟩ := ok_of_bind hentry
  have hok := (foldlM_addL1Data_ok_iff (by simp)).mp ⟨_, hf⟩
  refine (indexed_iff_of_largest hf ht hle hentry).mpr ?_
  exact h batchRaw hd top (hbl ▸ ht) (hbl ▸ hle) fun b hb hor =>
    hor.elim (hok b (hbl ▸ hb)) fun h => ⟨row, h ▸ ofExcept_ok_iff.mp hrow⟩

/-- Every index is stored, and the root of index 0 is `root`. -/
def plainEntries (root : Hash) (i : UInt32) : Except GoError (Option Entry) :=
  .ok (some ⟨⟨plainHash 1, plainHash 2, 3⟩, if i = 0 then root else plainHash 4, i⟩)

def zeroIndexBlock : GoBytes := ⟨changeL2Block :: replicate 8 0, by decide⟩

/-- One block with index 0 gives the root stored for index 0. -/
theorem not_rightData_of_zero :
    ¬RightData (plainEntries (plainHash 5)) .reference zeroIndexBlock := by
  intro h
  have hr := (h ⟨[⟨0, 0, []⟩]⟩ ∅ (plainHash 5) zeroHash (by decide) rfl).unused (by decide)
  exact absurd hr (by decide)

end EthdaNode.State
