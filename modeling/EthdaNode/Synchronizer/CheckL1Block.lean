import EthdaNode.Synchronizer.ReorgRetry

/-!
# Checking the hashes of the stored L1 blocks

`PreCheckL1BlockHash` compares the unchecked stored blocks of a segment with L1 and reads the
state again before it reports a reorganization. It reports one also when this read fails.
-/

namespace EthdaNode.Synchronizer.CheckL1Block

open State Sequencer ReorgRetry

/-- A row of `state.block` with its mark. -/
structure StateBlock extends L1Block where
  checked : Bool

/-- `CheckBlockHash`, on the hash that L1 answers for the number of the block. -/
def checkBlockHash (header : Except String (Option Hash)) (block : StateBlock) : Option SyncError :=
  match header with
  | .error e => some (.other e)
  | .ok none => some (.other "request of block to L1 returns a nil")
  | .ok (some hash) => if hash ≠ block.blockHash then some (.reorg block.blockNumber) else none

lemma checkBlockHash_none {header : Except String (Option Hash)} {block : StateBlock} :
    checkBlockHash header block = none ↔ header = .ok (some block.blockHash) := by
  rcases header with e | _ | hash <;> simp [checkBlockHash]

lemma checkBlockHash_reorg {header : Except String (Option Hash)} {block : StateBlock}
    {b : UInt64} : checkBlockHash header block = some (.reorg b) ↔
      block.blockNumber = b ∧ ∃ hash, header = .ok (some hash) ∧ hash ≠ block.blockHash := by
  rcases header with e | _ | hash <;> simp [checkBlockHash]
  tauto

/-! ## The check of a segment -/

/-- The answers a step gets, with the rows that its two reads of the state see. -/
structure Reads where
  initialSegment : Except String UInt64
  endSegment : Except String UInt64
  header : UInt64 → Except String (Option Hash)
  first : Except String (List StateBlock)
  second : Except String (List StateBlock)

def getUncheckedBlocks (rows : Except String (List StateBlock)) (fromBlock toBlock : UInt64) :
    Except String (List StateBlock) :=
  rows.map (·.filter fun r => fromBlock ≤ r.blockNumber ∧ r.blockNumber ≤ toBlock ∧ !r.checked)

namespace Reads

def checkThatStateBlockIsTheSame (r : Reads) (block : StateBlock) : Except String Bool := do
  match ← getUncheckedBlocks r.second block.blockNumber block.blockNumber with
  | [] => .ok false
  | stateBlock :: _ =>
    if stateBlock.blockNumber ≠ block.blockNumber then
      .error "The blockNumber returned by state is different from the state blockNumber"
    else .ok (stateBlock.blockHash = block.blockHash)

def checkBlocks (r : Reads) : List StateBlock → Option SyncError
  | [] => none
  | block :: blocks =>
    match checkBlockHash (r.header block.blockNumber) block with
    | none => r.checkBlocks blocks
    | some (.reorg b) =>
      match r.checkThatStateBlockIsTheSame block with
      -- the message says that the error is discarded
      | .error _ => some (.reorg b)
      | .ok false => some (.other "DeSync: a block hash is different from the state block hash")
      | .ok true => some (.reorg b)
    | some e => some e

def step (r : Reads) : Option SyncError :=
  match r.initialSegment, r.endSegment with
  | .error e, _ => some (.other e)
  | .ok _, .error e => some (.other e)
  | .ok fromBlock, .ok toBlock =>
    if fromBlock > toBlock then none
    else match getUncheckedBlocks r.first fromBlock toBlock with
      | .error e => some (.other e)
      | .ok blocks => r.checkBlocks blocks

/-- The block is the first of those of the segment for which L1 does not have the stored hash, and
L1 has another one. -/
def Differs (r : Reads) (block : StateBlock) : Prop :=
  ∃ fromBlock toBlock before after hash, r.initialSegment = .ok fromBlock ∧
    r.endSegment = .ok toBlock ∧ fromBlock ≤ toBlock ∧
    getUncheckedBlocks r.first fromBlock toBlock = .ok (before ++ block :: after) ∧
    (∀ x ∈ before, r.header x.blockNumber = .ok (some x.blockHash)) ∧
    r.header block.blockNumber = .ok (some hash) ∧ hash ≠ block.blockHash

/-- The second read still has the block with the hash of the first, which is not that of L1. -/
def Confirms (r : Reads) (b : UInt64) : Prop :=
  ∃ block rows row, r.Differs block ∧ block.blockNumber = b ∧ r.second = .ok rows ∧ row ∈ rows ∧
    row.checked = false ∧ row.blockNumber = b ∧ row.blockHash = block.blockHash

variable {r : Reads} {b : UInt64}

/-- The block that the loop reports is the first that is not as on L1, and the second read does not
say that it has changed. -/
lemma checkBlocks_reorg {blocks : List StateBlock} : r.checkBlocks blocks = some (.reorg b) ↔
    ∃ before block after hash, blocks = before ++ block :: after ∧
      (∀ x ∈ before, r.header x.blockNumber = .ok (some x.blockHash)) ∧
      r.header block.blockNumber = .ok (some hash) ∧ hash ≠ block.blockHash ∧
      block.blockNumber = b ∧ r.checkThatStateBlockIsTheSame block ≠ .ok false := by
  induction blocks with
  | nil => simp [checkBlocks]
  | cons first rest ih =>
    rw [checkBlocks]
    rcases hc : checkBlockHash (r.header first.blockNumber) first with _ | e
    · have hown := checkBlockHash_none.mp hc
      refine ih.trans ⟨?_, ?_⟩
      · rintro ⟨before, block, after, hash, rfl, hall, hrest⟩
        exact ⟨first :: before, block, after, hash, rfl, by simpa [hown] using hall, hrest⟩
      rintro ⟨_ | ⟨_, before⟩, block, after, hash, heq, hall, hh, hne, hrest⟩
      · cases heq
        rw [hown] at hh
        cases hh
        exact absurd rfl hne
      · cases heq
        exact ⟨before, block, after, hash, rfl, fun x hx => hall x (.tail _ hx), hh, hne, hrest⟩
    constructor
    · intro h
      obtain ⟨heq, hs⟩ : e = .reorg b ∧ r.checkThatStateBlockIsTheSame first ≠ .ok false := by
        grind
      obtain ⟨hb, hash, hh, hne⟩ := checkBlockHash_reorg.mp (heq ▸ hc)
      exact ⟨[], first, rest, hash, rfl, by simp, hh, hne, hb, hs⟩
    rintro ⟨_ | ⟨_, before⟩, block, after, hash, heq, hall, hh, hne, hb, hs⟩
    · cases heq
      rw [checkBlockHash_reorg.mpr ⟨hb, hash, hh, hne⟩] at hc
      cases hc
      grind
    · cases heq
      rw [checkBlockHash_none.mpr (hall first (.head _))] at hc
      cases hc

/-- A report names the block that differs, and is made unless the second read has changed. -/
lemma step_reorg : r.step = some (.reorg b) ↔
    ∃ block, r.Differs block ∧ block.blockNumber = b ∧
      r.checkThatStateBlockIsTheSame block ≠ .ok false := by
  unfold step Differs
  rcases r.initialSegment with e | fromBlock
  · simp
  rcases r.endSegment with e | toBlock
  · simp
  by_cases hle : fromBlock ≤ toBlock
  · cases hrows : getUncheckedBlocks r.first fromBlock toBlock with
    | error e => simp [UInt64.not_lt.mpr hle, hrows]
    | ok blocks =>
      simp [UInt64.not_lt.mpr hle, hrows, checkBlocks_reorg]
      grind
  · simp [UInt64.not_le.mp hle, hle]

lemma same_of_second {rows : List StateBlock} {block : StateBlock} (hn : r.second = .ok rows)
    (hs : r.checkThatStateBlockIsTheSame block ≠ .ok false) :
    ∃ row ∈ rows, row.checked = false ∧ row.blockNumber = block.blockNumber ∧
      row.blockHash = block.blockHash := by
  have hr : getUncheckedBlocks r.second block.blockNumber block.blockNumber =
      .ok (rows.filter fun r => block.blockNumber ≤ r.blockNumber ∧
        r.blockNumber ≤ block.blockNumber ∧ !r.checked) := by
    rw [hn]
    rfl
  rw [checkThatStateBlockIsTheSame, hr] at hs
  cases hf : rows.filter fun r => block.blockNumber ≤ r.blockNumber ∧
      r.blockNumber ≤ block.blockNumber ∧ !r.checked with
  | nil =>
    rw [hf] at hs
    exact absurd rfl hs
  | cons row rest =>
    obtain ⟨hm, hk⟩ := List.mem_filter.mp (hf ▸ List.mem_cons_self)
    obtain ⟨hfrom, hto, hc⟩ := of_decide_eq_true hk
    have hnumber := UInt64.le_antisymm hto hfrom
    rw [hf] at hs
    refine ⟨row, hm, by simpa using hc, hnumber, ?_⟩
    by_contra hother
    apply hs
    simp [Bind.bind, Except.bind, hnumber, hother]

/-- Every reorganization that is reported is confirmed exactly if the second read succeeds, or no
stored block differs from L1 behind blocks that are as on L1. -/
theorem step_confirms_iff (r : Reads) : (∀ b, r.step = some (.reorg b) → r.Confirms b) ↔
    (∃ rows, r.second = .ok rows) ∨ ∀ block, ¬r.Differs block := by
  constructor
  · intro h
    by_contra hc
    obtain ⟨hf, hd⟩ := not_or.mp hc
    obtain ⟨block, hblock⟩ := not_forall_not.mp hd
    cases hs : r.second with
    | ok rows => exact hf ⟨rows, hs⟩
    | error e =>
      have hsame : r.checkThatStateBlockIsTheSame block ≠ .ok false := by
        rw [checkThatStateBlockIsTheSame, hs]
        exact nofun
      obtain ⟨-, rows, -, -, -, hok, -⟩ := h _ (step_reorg.mpr ⟨block, hblock, rfl, hsame⟩)
      exact hf ⟨rows, hok⟩
  · rintro (⟨rows, hs⟩ | hnone) b hb
    · obtain ⟨block, hd, rfl, hsame⟩ := step_reorg.mp hb
      obtain ⟨row, hrow, hc, hnumber, hhash⟩ := same_of_second hs hsame
      exact ⟨block, rows, row, hd, rfl, hs, hrow, hc, hnumber, hhash⟩
    · obtain ⟨block, hd, -⟩ := step_reorg.mp hb
      exact absurd hd (hnone block)

/-- Block 7 differs from L1, and the second read fails. -/
theorem step_reports_unconfirmed :
    let r : Reads := ⟨.ok 1, .ok 9, fun _ => .ok (some (plainHash 1)),
    .ok [⟨⟨7, plainHash 7, plainHash 6, 0⟩, false⟩], .error "timeout"⟩
    r.step = some (.reorg 7) ∧ ¬r.Confirms 7 := by
  refine ⟨by decide, ?_⟩
  rintro ⟨-, rows, -, -, -, hok, -⟩
  exact absurd hok nofun

end Reads

end EthdaNode.Synchronizer.CheckL1Block
