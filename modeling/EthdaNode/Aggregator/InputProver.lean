import EthdaNode.State.L1InfoTreeData

/-!
# The input of the prover

`buildInputProver` collects for a virtual batch the exit roots of its blocks with their Merkle
proofs. It reads through pointers that can be nil, and the last of the leaves without a check.
-/

namespace EthdaNode.Aggregator

open Go Go.Outcome State List
open L1InfoTree
open Sequencer (Hash plainHash)

inductive InputError where
  | state (e : GoError)
  | tree (e : TreeError)
  | l1InfoRootMismatch (l1InfoTreeIndex : UInt32)

structure L1Data where
  globalExitRoot : Hash
  blockhashL1 : Hash
  minTimestamp : UInt32
  smtProof : List Hash

structure Batch where
  batchNumber : UInt64
  stateRoot : Hash
  accInputHash : Hash

/-- What the input takes from the previous batch and from the state; the rest is copied from the
batch and the configuration. -/
structure InputProver where
  previousBatch : Batch
  l1InfoRoot : Hash
  l1InfoTreeData : GoMap UInt32 L1Data
  forcedBlockhashL1 : Hash

/-- The answers of the state. A previous batch that is not found is nil, as is the root of a virtual
batch that has none. -/
structure Answers where
  getBatchByNumber : Except GoError (Option Batch)
  getVirtualBatch : Except GoError (Option Hash)
  getLeavesByL1InfoRoot : Hash → Except GoError (List Entry)
  query : UInt32 → Except GoError (Option Entry)
  parentHash : Except GoError Hash

def deref {α : Type} (x : Option α) : Outcome InputError α := x.elim panic ok

@[simp] lemma deref_some {α : Type} (a : α) : deref (some a) = ok a := rfl

@[simp] lemma deref_none {α : Type} : deref (none : Option α) = panic := rfl

variable (keccak : Keccak) (answers : Answers)

def addProof (tree : Tree) (l1InfoRoot : Hash) (leaves : List Entry)
    (l1InfoTreeData : GoMap UInt32 L1Data) (block : L2BlockRaw) :
    Outcome InputError (GoMap UInt32 L1Data) :=
  if block.indexL1InfoTree ∉ l1InfoTreeData ∧ block.indexL1InfoTree ≠ 0 then do
    let last ← deref leaves.getLast?
    let entry ← if block.indexL1InfoTree ≤ last.l1InfoTreeIndex then
        mapErr .state (getL1InfoRootLeafByIndex answers.query block.indexL1InfoTree)
      else ok ⟨⟨zeroHash, zeroHash, 0⟩, zeroHash, 0⟩
    let proof ← mapErr .tree
      (computeMerkleProof keccak.hash tree block.indexL1InfoTree (leafHashes keccak leaves))
    if proof.2 ≠ l1InfoRoot then err (.l1InfoRootMismatch block.indexL1InfoTree)
    else ok (l1InfoTreeData.insert block.indexL1InfoTree ⟨entry.leaf.globalExitRoot,
      entry.leaf.previousBlockHash, entry.leaf.timestamp.toUInt32, proof.1⟩)
  else ok l1InfoTreeData

def l1InfoTreeDataOf (l1InfoRoot : Option Hash) (blocks : List L2BlockRaw) :
    Outcome InputError (GoMap UInt32 L1Data) := do
  let tree ← mapErr .tree (newL1InfoTree keccak.hash 32 [])
  let root ← deref l1InfoRoot
  let leaves ← ofExcept .state (answers.getLeavesByL1InfoRoot root)
  blocks.foldlM (addProof keccak answers tree root leaves) ∅

def inputOf (previousBatch : Option Batch) (l1InfoRoot : Option Hash)
    (data : GoMap UInt32 L1Data) (forcedBlockhashL1 : Hash) : Outcome InputError InputProver := do
  let previous ← deref previousBatch
  let root ← deref l1InfoRoot
  ok ⟨previous, root, data, forcedBlockhashL1⟩

/-- `isForcedBatch` holds for the first batch and that of the upgrade, too. -/
def buildInputProver (geth : GoEthereum) (isForcedBatch : Bool) (batchL2Data : GoBytes) :
    Outcome InputError InputProver := do
  let previousBatch ← ofExcept .state answers.getBatchByNumber
  let batchRawData ← if isForcedBatch then ok ⟨[]⟩
    else mapErr .state (decodeBatchV2 geth batchL2Data)
  let l1InfoRoot ← ofExcept .state answers.getVirtualBatch
  let data ← if isForcedBatch then ok ∅
    else l1InfoTreeDataOf keccak answers l1InfoRoot batchRawData.blocks
  let forcedBlockhashL1 ← if isForcedBatch then ofExcept .state answers.parentHash
    else ok zeroHash
  inputOf previousBatch l1InfoRoot data forcedBlockhashL1

/-- The leaf of an index: that of the stored entry, or the empty one above the last. -/
def IsLeaf (leaves : List Entry) (i : UInt32) (x : L1Data) (leaf : Hash) : Prop :=
  if i.toNat < leaves.length then ∃ e, answers.query i = .ok (some e) ∧
    leaf = keccak.leafHash e.leaf ∧ x.globalExitRoot = e.leaf.globalExitRoot ∧
    x.blockhashL1 = e.leaf.previousBlockHash ∧ x.minTimestamp = e.leaf.timestamp.toUInt32
  else leaf = zeroHash ∧ x.globalExitRoot = zeroHash ∧ x.blockhashL1 = zeroHash ∧ x.minTimestamp = 0

def Proven (root : Hash) (leaves : List Entry) (i : UInt32) (x : L1Data) : Prop :=
  ∃ leaf, IsLeaf keccak answers leaves i x leaf ∧
    foldProof keccak.hash i.toNat leaf x.smtProof = root

/-- The data of the blocks with their proofs against the root. -/
structure RightInput (blocks : List L2BlockRaw) (leaves : List Entry) (input : InputProver) :
    Prop where
  keys : ∀ i, i ∈ input.l1InfoTreeData ↔ i ≠ 0 ∧ ∃ b ∈ blocks, b.indexL1InfoTree = i
  proofs : ∀ i x, input.l1InfoTreeData.lookup i = some x →
    Proven keccak answers input.l1InfoRoot leaves i x

/-- The leaves are those of the indices 0, 1, …; the entry of such an index is read as it is among
them, unless the query fails. -/
structure Numbered (leaves : List Entry) : Prop where
  length_lt : leaves.length + 1 < 2 ^ 32
  stored : ∀ i (h : i < leaves.length), leaves[i].l1InfoTreeIndex.toNat = i ∧
    ∀ e, answers.query leaves[i].l1InfoTreeIndex = .ok e → e = some leaves[i]

/-- There is no proof for an index: the root is not that of the leaves, or the entry is not read. -/
def Refused (root : Hash) (leaves : List Entry) (i : UInt32) : Prop :=
  MerkleTree.root keccak.hash zeroHash 32 (leafHashes keccak leaves) ≠ root ∨
    i.toNat < leaves.length ∧ ∃ e, answers.query i = .error e

variable {keccak answers} {tree : Tree} {leaves : List Entry} {root : Hash}
  {data : GoMap UInt32 L1Data} {b : L2BlockRaw}

lemma Numbered.getLast? (hn : Numbered answers leaves) (hne : leaves ≠ []) :
    ∃ last, leaves.getLast? = some last ∧ last.l1InfoTreeIndex.toNat + 1 = leaves.length := by
  have hpos := length_pos_iff.mpr hne
  refine ⟨leaves[leaves.length - 1], ?_, ?_⟩
  · rw [getLast?_eq_getElem?, getElem?_eq_getElem (by omega)]
  · rw [(hn.stored (leaves.length - 1) (by omega)).1]
    omega

section
variable (hn : Numbered answers leaves) (hh : tree.height = 32)
  (hz : tree.zeroHashes = generateZeroHashes keccak.hash tree.height)
include hn hh hz

/-- The proof of an index proves its leaf against the root of the leaves. -/
lemma computeMerkleProof_leaves (hne : leaves ≠ []) (i : UInt32) : ∃ siblings,
    computeMerkleProof keccak.hash tree i (leafHashes keccak leaves) =
      .ok (siblings, MerkleTree.root keccak.hash zeroHash 32 (leafHashes keccak leaves)) ∧
    foldProof keccak.hash i.toNat (leafOf (leafHashes keccak leaves) i.toNat) siblings =
      MerkleTree.root keccak.hash zeroHash 32 (leafHashes keccak leaves) := by
  have hpos := length_pos_iff.mpr hne
  have ht := hn.length_lt
  have hln : (leafHashes keccak leaves).length = leaves.length := length_map _
  obtain ⟨siblings, r, hp, -, hf, hr⟩ := ProofCall.computeMerkleProof_proves
    ⟨32, leafHashes keccak leaves, i, by decide, by omega, by simp [hln]; omega,
      UInt32.toNat_lt _⟩ (by simp only; decide) (by simp only; omega) keccak.hash tree hh hz
  rw [buildRoot_eq hz (by rw [hh]; decide) (by rw [hh, hln]; simp; omega), hh] at hr
  cases hr
  exact ⟨siblings, hp, hf⟩

/-- A new index is refused, or gets data with its proof. -/
lemma addProof_cases (hne : leaves ≠ [])
    (hw : b.indexL1InfoTree ∉ data ∧ b.indexL1InfoTree ≠ 0) :
    Refused keccak answers root leaves b.indexL1InfoTree ∧
      (∃ e, addProof keccak answers tree root leaves data b = err e) ∨
    ¬Refused keccak answers root leaves b.indexL1InfoTree ∧
      ∃ x, Proven keccak answers root leaves b.indexL1InfoTree x ∧
        addProof keccak answers tree root leaves data b =
          ok (data.insert b.indexL1InfoTree x) := by
  obtain ⟨siblings, hp, hf⟩ := computeMerkleProof_leaves hn hh hz hne b.indexL1InfoTree
  obtain ⟨last, hlast, hlen⟩ := hn.getLast? hne
  rw [addProof, if_pos hw, hlast, hp]
  by_cases hi : b.indexL1InfoTree.toNat < leaves.length
  · have hle : b.indexL1InfoTree ≤ last.l1InfoTreeIndex :=
      UInt32.le_iff_toNat_le.mpr (by omega)
    obtain ⟨hindex, hstored⟩ := hn.stored _ hi
    rw [UInt32.toNat_inj.mp hindex] at hstored
    simp only [deref_some, ok_bind, if_pos hle, getL1InfoRootLeafByIndex]
    rcases hq : answers.query b.indexL1InfoTree with e | e
    · exact .inl ⟨.inr ⟨hi, e, hq⟩, _, rfl⟩
    obtain rfl := hstored e hq
    have hleaf : leafOf (leafHashes keccak leaves) b.indexL1InfoTree.toNat =
        keccak.leafHash leaves[b.indexL1InfoTree.toNat].leaf := by
      simp [leafOf, leafHashes, hi]
    simp only [ofExcept_ok, ok_bind, Option.getD_some, mapErr_ok]
    by_cases hr : MerkleTree.root keccak.hash zeroHash 32 (leafHashes keccak leaves) = root
    · refine .inr ⟨by simp [Refused, hr, hq], _, ⟨_, (if_pos hi).mpr ?_, hf.trans hr⟩, if_neg ?_⟩
      · exact ⟨_, hq, hleaf, rfl, rfl, rfl⟩
      · simpa using hr
    · exact .inl ⟨.inl hr, _, if_pos hr⟩
  · have hgt : ¬b.indexL1InfoTree ≤ last.l1InfoTreeIndex :=
      fun hle => hi (by have := UInt32.le_iff_toNat_le.mp hle; omega)
    have hzero : leafOf (leafHashes keccak leaves) b.indexL1InfoTree.toNat = zeroHash :=
      getD_eq_default _ _ (by simp [leafHashes]; omega)
    simp only [deref_some, ok_bind, if_neg hgt, mapErr_ok]
    by_cases hr : MerkleTree.root keccak.hash zeroHash 32 (leafHashes keccak leaves) = root
    · refine .inr ⟨by simp [Refused, hr, hi], _, ⟨_, (if_neg hi).mpr ?_, hf.trans hr⟩, if_neg ?_⟩
      · exact ⟨hzero, rfl, rfl, rfl⟩
      · simpa using hr
    · exact .inl ⟨.inl hr, _, if_pos hr⟩

/-- The loop stops at an index that is refused, or has the proofs for all. -/
lemma foldlM_addProof {blocks : List L2BlockRaw}
    (hne : (∃ b ∈ blocks, b.indexL1InfoTree ≠ 0) → leaves ≠ [])
    (hdata : ∀ i ∈ data, ¬Refused keccak answers root leaves i) :
    (∃ b ∈ blocks, b.indexL1InfoTree ≠ 0 ∧ Refused keccak answers root leaves b.indexL1InfoTree) ∧
      (∃ e, blocks.foldlM (addProof keccak answers tree root leaves) data = err e) ∨
    (∀ b ∈ blocks, b.indexL1InfoTree ≠ 0 → ¬Refused keccak answers root leaves b.indexL1InfoTree) ∧
      ∃ data', blocks.foldlM (addProof keccak answers tree root leaves) data = ok data' ∧
        (∀ i, i ∈ data' ↔ i ∈ data ∨ i ≠ 0 ∧ ∃ b ∈ blocks, b.indexL1InfoTree = i) ∧
        ∀ i x, data'.lookup i = some x →
          data.lookup i = some x ∨ Proven keccak answers root leaves i x := by
  induction blocks generalizing data with
  | nil => exact .inr ⟨nofun, data, rfl, by simp, by simp +contextual⟩
  | cons b blocks ih =>
    have hne' : (∃ b ∈ blocks, b.indexL1InfoTree ≠ 0) → leaves ≠ [] := by
      rintro ⟨b, hb, hi⟩
      exact hne ⟨b, mem_cons_of_mem _ hb, hi⟩
    rw [foldlM_cons]
    by_cases hw : b.indexL1InfoTree ∉ data ∧ b.indexL1InfoTree ≠ 0
    · rcases addProof_cases hn hh hz (hne ⟨b, mem_cons_self, hw.2⟩) hw with
        ⟨hr, e, ha⟩ | ⟨hr, x, hx, ha⟩
      · rw [ha]
        exact .inl ⟨⟨b, mem_cons_self, hw.2, hr⟩, e, rfl⟩
      rw [ha, ok_bind]
      rcases ih hne' (show ∀ i ∈ data.insert b.indexL1InfoTree x,
        _ by grind [AList.mem_insert]) with ⟨⟨b', hb', hrest⟩, herr⟩ | ⟨hall, data', hd, hk, hv⟩
      · exact .inl ⟨⟨b', mem_cons_of_mem _ hb', hrest⟩, herr⟩
      refine .inr ⟨by grind, data', hd, fun i => ?_, fun i y hy => ?_⟩
      · rw [hk, AList.mem_insert]
        grind
      rcases hv i y hy with hin | hp
      · rw [GoMap.lookup_insert_eq] at hin
        split_ifs at hin with hi
        · cases hin
          exact .inr (hi ▸ hx)
        · exact .inl hin
      · exact .inr hp
    · rw [addProof, if_neg hw, ok_bind]
      rcases ih hne' hdata with ⟨⟨b', hb', hrest⟩, herr⟩ | ⟨hall, data', hd, hk, hv⟩
      · exact .inl ⟨⟨b', mem_cons_of_mem _ hb', hrest⟩, herr⟩
      refine .inr ⟨by grind, data', hd, fun i => ?_, hv⟩
      rw [hk]
      grind

end

lemma foldlM_addProof_nil {blocks : List L2BlockRaw} (h : ∃ b ∈ blocks, b.indexL1InfoTree ≠ 0) :
    blocks.foldlM (addProof keccak answers tree root []) ∅ = .panic := by
  induction blocks with
  | nil => simp at h
  | cons b blocks ih =>
    rw [foldlM_cons, addProof]
    by_cases hz : b.indexL1InfoTree = 0
    · rw [if_neg (by simp [hz]), ok_bind]
      exact ih (by simpa [hz] using h)
    · rw [if_pos ⟨by simp, hz⟩]
      rfl

variable (keccak answers) in
/-- No pointer that is read is nil: neither the root nor the previous batch, unless an error ends
the call before, nor the last leaf. -/
def NoNil (isForcedBatch : Bool) (blocks : List L2BlockRaw) (previous : Option Batch)
    (l1InfoRoot : Option Hash) : Prop :=
  if isForcedBatch then
    (∃ hash, answers.parentHash = .ok hash) → previous ≠ none ∧ l1InfoRoot ≠ none
  else ∃ root, l1InfoRoot = some root ∧
    ∀ leaves, answers.getLeavesByL1InfoRoot root = .ok leaves →
      ((∃ b ∈ blocks, b.indexL1InfoTree ≠ 0) → leaves ≠ []) ∧
      (previous = none → ∃ b ∈ blocks, b.indexL1InfoTree ≠ 0 ∧
        Refused keccak answers root leaves b.indexL1InfoTree)

variable (keccak answers) in
/-- The call returns; the input of a batch that is not forced has the data of its blocks. -/
def Right (isForcedBatch : Bool) (blocks : List L2BlockRaw) (out : Outcome InputError InputProver) :
    Prop :=
  out.Returns ∧ (isForcedBatch = false → ∀ input, out = ok input →
    ∃ leaves, answers.getLeavesByL1InfoRoot input.l1InfoRoot = .ok leaves ∧
      RightInput keccak answers blocks leaves input)

section
variable {isForcedBatch : Bool} {blocks : List L2BlockRaw} {out : Outcome InputError InputProver}

lemma right_of_err {e : InputError} (h : out = err e) :
    Right keccak answers isForcedBatch blocks out := by
  subst h
  exact ⟨returns_err e, nofun⟩

lemma not_right_of_panic (h : out = .panic) : ¬Right keccak answers isForcedBatch blocks out :=
  fun hr => hr.1.1 h

/-- A batch that is not forced: without the root or a last leaf the function panics, without the
previous batch unless an index is refused. -/
lemma l1InfoTreeDataOf_right_iff {previous : Option Batch} {l1InfoRoot : Option Hash}
    (hleaves : ∀ root leaves, l1InfoRoot = some root →
      answers.getLeavesByL1InfoRoot root = .ok leaves → Numbered answers leaves) :
    Right keccak answers false blocks
      (l1InfoTreeDataOf keccak answers l1InfoRoot blocks >>= fun data =>
        inputOf previous l1InfoRoot data zeroHash) ↔
    NoNil keccak answers false blocks previous l1InfoRoot := by
  rw [NoNil, if_neg Bool.false_ne_true]
  obtain ⟨tree, ht, hh, hr, -⟩ :=
    newTree_ok keccak.hash (show 0 < (32 : UInt8).toNat by decide) (by decide)
      (show ([] : List Hash).length ≤ _ by decide)
  rw [l1InfoTreeDataOf, ht, mapErr_ok, ok_bind]
  rcases l1InfoRoot with _ | root
  · exact iff_of_false (not_right_of_panic rfl) (by simp)
  rw [deref_some, ok_bind]
  rcases hg : answers.getLeavesByL1InfoRoot root with e | leaves
  · exact iff_of_true (right_of_err rfl) ⟨root, rfl, by simp [hg]⟩
  simp only [Option.some.injEq, exists_eq_left', Except.ok.injEq, forall_eq', hg]
  rw [ofExcept_ok, ok_bind]
  by_cases hne : (∃ b ∈ blocks, b.indexL1InfoTree ≠ 0) → leaves ≠ []
  · rcases foldlM_addProof (hleaves root leaves rfl hg) hh hr.zeroHashes hne
        (show ∀ i ∈ (∅ : GoMap UInt32 L1Data), ¬Refused keccak answers root leaves i by simp) with
      ⟨hex, e, he⟩ | ⟨hall, data, hd, hk, hp⟩
    · exact iff_of_true (right_of_err (by rw [he]; rfl)) ⟨hne, fun _ => hex⟩
    rw [hd, ok_bind]
    cases previous with
    | none =>
      refine iff_of_false (not_right_of_panic rfl) fun h => ?_
      obtain ⟨b, hb, hi, hx⟩ := h.2 rfl
      exact hall b hb hi hx
    | some p =>
      refine iff_of_true ⟨returns_ok _, fun _ input hin => ?_⟩ ⟨hne, by simp⟩
      cases hin
      exact ⟨leaves, hg, by simpa using hk, by simpa using hp⟩
  · obtain ⟨hex, hnil⟩ := not_forall.mp hne
    rw [not_not.mp hnil, foldlM_addProof_nil hex]
    exact iff_of_false (not_right_of_panic rfl) fun h => h.1 hex rfl

end

lemma forall_ok_iff {α β : Type} {P : α → β → Prop} (a : α) (b : β) :
    (∀ x y, (.ok a : Except GoError α) = .ok x → (.ok b : Except GoError β) = .ok y → P x y) ↔
      P a b := by
  simp

/-- For leaves that are stored under 0, 1, …, the function returns, with the right data for a batch
that is not forced, exactly if no pointer that it reads is nil. -/
theorem buildInputProver_right_iff (keccak : Keccak) (answers : Answers) (geth : GoEthereum)
    (isForcedBatch : Bool) (batchL2Data : GoBytes) (raw : BatchRawV2)
    (hraw : isForcedBatch = false → decodeBatchV2 geth batchL2Data = ok raw)
    (hleaves : isForcedBatch = false → ∀ root leaves, answers.getVirtualBatch = .ok (some root) →
      answers.getLeavesByL1InfoRoot root = .ok leaves → Numbered answers leaves) :
    Right keccak answers isForcedBatch raw.blocks
      (buildInputProver keccak answers geth isForcedBatch batchL2Data) ↔
    ∀ previous l1InfoRoot, answers.getBatchByNumber = .ok previous →
      answers.getVirtualBatch = .ok l1InfoRoot →
      NoNil keccak answers isForcedBatch raw.blocks previous l1InfoRoot := by
  rcases hb : answers.getBatchByNumber with e | previous
  · exact iff_of_true (right_of_err (by rw [buildInputProver, hb]; rfl)) nofun
  rcases hv : answers.getVirtualBatch with e | l1InfoRoot
  · refine iff_of_true (right_of_err (e := .state e) ?_) nofun
    cases isForcedBatch with
    | true =>
      rw [buildInputProver, hb, hv]
      rfl
    | false =>
      rw [buildInputProver, hb, hv, hraw rfl]
      rfl
  refine Iff.trans ?_ (forall_ok_iff previous l1InfoRoot).symm
  cases isForcedBatch with
  | true =>
    have hbuild : buildInputProver keccak answers geth true batchL2Data =
        ofExcept .state answers.parentHash >>= inputOf previous l1InfoRoot ∅ := by
      rw [buildInputProver, hb, hv]
      rfl
    rw [hbuild, NoNil, if_pos rfl]
    cases hp : answers.parentHash with
    | error e => exact iff_of_true (right_of_err rfl) nofun
    | ok hash => cases previous <;> cases l1InfoRoot <;> simp [inputOf, Right, Returns]
  | false =>
    have hbuild : buildInputProver keccak answers geth false batchL2Data =
        l1InfoTreeDataOf keccak answers l1InfoRoot raw.blocks >>= fun data =>
          inputOf previous l1InfoRoot data zeroHash := by
      rw [buildInputProver, hb, hv, hraw rfl]
      rfl
    rw [hbuild]
    exact l1InfoTreeDataOf_right_iff fun root leaves hroot => hleaves rfl root leaves (hroot ▸ hv)

def plainKeccak : Keccak := ⟨fun left _ => left, fun globalExitRoot _ _ => globalExitRoot⟩

/-- The state has two leaves, whose root is `plainHash 1`. -/
def plainAnswers (previous : Option Batch) (root : Option Hash) : Answers :=
  ⟨.ok previous, .ok root, fun _ => .ok [⟨⟨plainHash 1, plainHash 2, 3⟩, zeroHash, 0⟩,
    ⟨⟨plainHash 1, plainHash 2, 3⟩, plainHash 4, 1⟩], plainEntries zeroHash, .ok zeroHash⟩

/-- A block with the index 1, and one with the index 9 above the last leaf. -/
def twoIndexBlocks : GoBytes :=
  ⟨changeL2Block :: replicate 7 0 ++ 1 :: changeL2Block :: replicate 7 0 ++ [9], by decide⟩

theorem buildInputProver_right_iff_twoIndexBlocks : ∃ input leaves, buildInputProver plainKeccak
    (plainAnswers (some ⟨0, zeroHash, zeroHash⟩) (some (plainHash 1))) .reference false
      twoIndexBlocks = ok input ∧
    RightInput plainKeccak (plainAnswers (some ⟨0, zeroHash, zeroHash⟩) (some (plainHash 1)))
      [⟨0, 1, []⟩, ⟨0, 9, []⟩] leaves input := by
  have hright := (buildInputProver_right_iff plainKeccak
    (plainAnswers (some ⟨0, zeroHash, zeroHash⟩) (some (plainHash 1))) .reference false
    twoIndexBlocks ⟨[⟨0, 1, []⟩, ⟨0, 9, []⟩]⟩ (fun _ => by decide)
    fun _ root leaves _ h => by
      cases h
      refine ⟨by decide, fun i hi => ?_⟩
      rw [length_cons, length_singleton] at hi
      interval_cases i
      · exact ⟨rfl, fun e he => by cases he; rfl⟩
      · exact ⟨rfl, fun e he => by cases he; rfl⟩).mpr fun previous root hp hr => by
    cases hp
    cases hr
    refine ⟨_, rfl, fun leaves h => ?_⟩
    cases h
    exact ⟨nofun, nofun⟩
  obtain ⟨input, hinput⟩ : ∃ input, buildInputProver plainKeccak
      (plainAnswers (some ⟨0, zeroHash, zeroHash⟩) (some (plainHash 1))) .reference false
      twoIndexBlocks = ok input := ⟨_, rfl⟩
  obtain ⟨leaves, -, h⟩ := hright.2 rfl input hinput
  exact ⟨input, leaves, hinput, h⟩

/-- Without the previous batch and without the root of the virtual batch. -/
theorem buildInputProver_panics : buildInputProver plainKeccak
    (plainAnswers none (some zeroHash)) .reference true zeroIndexBlock = panic ∧
    buildInputProver plainKeccak (plainAnswers (some ⟨0, zeroHash, zeroHash⟩) none) .reference true
    zeroIndexBlock = panic :=
  ⟨rfl, rfl⟩

end EthdaNode.Aggregator
