import EthdaNode.Synchronizer.TrustedSync

/-!
# The exit root of a trusted batch

Before a batch of the trusted node is executed, `CheckL1SyncGlobalExitRootEnoughToProcessBatch`
looks for its global exit root in the state. If the root is not there, the trusted node is
asked for the L1 block of the root, which tells whether this node is behind or has lost it. An
answer without a block and without an error is handled like an error, and the error that is
returned for it is nil.
-/

namespace EthdaNode.Synchronizer.GlobalExitRoots

open State Synchronizer.TrustedSync
open L1InfoTree (zeroHash)
open Sequencer (Hash)

variable {ε : Type}

/-- A row of `state.exit_root`, as far as it is read. -/
structure ExitRootRow where
  blockNumber : UInt64
  globalExitRoot : Hash
  deriving DecidableEq

/-- The rows in the order of their ids, the error of the query for a root, and the last block or the
error of the query for it. -/
structure LocalState (ε : Type) where
  exitRoots : List ExitRootRow
  lookupError : Option ε
  getLastBlock : Except ε L1Block

variable (s : LocalState ε)

/-- `GetExitRootByGlobalExitRoot`; `none` is `ErrNotFound`. -/
def LocalState.getExitRootByGlobalExitRoot (ger : Hash) : Except ε (Option ExitRootRow) :=
  match s.lookupError with
  | some e => .error e
  | none => .ok (s.exitRoots.reverse.find? (·.globalExitRoot = ger))

inductive CheckError (ε : Type) where
  | underlying (e : ε)
  | missingSyncFromL1
  | deSync (l1BlockNumber : UInt64)
  deriving DecidableEq

/-- `CheckL1SyncGlobalExitRootEnoughToProcessBatch`: the error. The answer of the trusted node is
the block number of the exit root, as far as it is read. -/
def checkL1SyncGlobalExitRootEnoughToProcessBatch (exitRootsByGER : Hash → Except ε (Option UInt64))
    (globalExitRoot : Hash) : Option (CheckError ε) :=
  if globalExitRoot = zeroHash then none
  else
    match s.getExitRootByGlobalExitRoot globalExitRoot with
    | .error e => some (.underlying e)
    | .ok (some _) => none
    | .ok none =>
      match exitRootsByGER globalExitRoot with
      | .error e => some (.underlying e)
      -- `err != nil || exitRoots == nil` returns `err`, which is nil here.
      | .ok none => none
      | .ok (some blockNumber) =>
        match s.getLastBlock with
        | .error e => some (.underlying e)
        | .ok lastL1BlockSynced =>
          if lastL1BlockSynced.blockNumber < blockNumber then some .missingSyncFromL1
          else some (.deSync blockNumber)

def LocalState.Stores (ger : Hash) : Prop := ∃ row ∈ s.exitRoots, row.globalExitRoot = ger

variable (exitRootsByGER : Hash → Except ε (Option UInt64)) (ger : Hash)

/-- The root is not found, and the trusted node answers without a block and without an error. -/
def EmptyAnswer : Prop :=
  ger ≠ zeroHash ∧ s.lookupError = none ∧ ¬ s.Stores ger ∧ exitRootsByGER ger = .ok none

inductive Explains : CheckError ε → Prop
  | lookup {e : ε} (h : s.lookupError = some e) : Explains (.underlying e)
  | rpc {e : ε} (h : exitRootsByGER ger = .error e) : Explains (.underlying e)
  | lastBlock {e : ε} (h : s.getLastBlock = .error e) : Explains (.underlying e)
  | behind {n : UInt64} {last : L1Block} (h : exitRootsByGER ger = .ok (some n))
      (hlast : s.getLastBlock = .ok last) (hlt : last.blockNumber < n) :
      Explains .missingSyncFromL1
  | lost {n : UInt64} {last : L1Block} (h : exitRootsByGER ger = .ok (some n))
      (hlast : s.getLastBlock = .ok last) (hle : n ≤ last.blockNumber) :
      Explains (.deSync n)

/-- Nil is returned only for the zero root or a stored one; other errors explain themselves; and
`ProcessTrustedBatch` executes nothing after an error. -/
structure Guards : Prop where
  enough : checkL1SyncGlobalExitRootEnoughToProcessBatch s exitRootsByGER ger = none →
    ger = zeroHash ∨ s.Stores ger
  explains : ger ≠ zeroHash → ¬ s.Stores ger → ∃ e,
    checkL1SyncGlobalExitRootEnoughToProcessBatch s exitRootsByGER ger = some e ∧
      Explains s exitRootsByGER ger e
  executesNothing : ∀ (env : TrustedEnv) (now : ℤ) (batch : RpcBatch) (status : TrustedState)
    (tx : TxState) (e : CheckError ε), batch.globalExitRoot = ger →
    (∀ n, env.checkGlobalExitRoot n ger =
      (checkL1SyncGlobalExitRootEnoughToProcessBatch s exitRootsByGER ger).isNone) →
    checkL1SyncGlobalExitRootEnoughToProcessBatch s exitRootsByGER ger = some e →
    processTrustedBatch env now batch status tx = (.error .globalExitRoot, tx)

variable {s exitRootsByGER ger}

lemma exitRoot_of_not_stores (hl : s.lookupError = none) (h : ¬ s.Stores ger) :
    s.getExitRootByGlobalExitRoot ger = .ok none := by
  rw [LocalState.getExitRootByGlobalExitRoot, hl]
  refine congrArg Except.ok (List.find?_eq_none.mpr fun row hr => ?_)
  simp only [decide_eq_true_eq]
  exact fun hg => h ⟨row, List.mem_reverse.mp hr, hg⟩

/-- Without an empty answer a root that is not there is explained. -/
lemma explained (hz : ger ≠ zeroHash) (h : ¬ s.Stores ger)
    (ha : ¬ EmptyAnswer s exitRootsByGER ger) : ∃ e,
    checkL1SyncGlobalExitRootEnoughToProcessBatch s exitRootsByGER ger = some e ∧
    Explains s exitRootsByGER ger e := by
  rw [checkL1SyncGlobalExitRootEnoughToProcessBatch, if_neg hz]
  cases hl : s.lookupError with
  | some e =>
    rw [LocalState.getExitRootByGlobalExitRoot, hl]
    exact ⟨_, rfl, .lookup hl⟩
  | none =>
    rw [exitRoot_of_not_stores hl h]
    dsimp only
    cases hr : exitRootsByGER ger with
    | error e => exact ⟨_, rfl, .rpc hr⟩
    | ok n =>
      cases n with
      | none => exact absurd ⟨hz, hl, h, hr⟩ ha
      | some n =>
        cases hs : s.getLastBlock with
        | error e => exact ⟨_, rfl, .lastBlock hs⟩
        | ok last =>
          dsimp only
          split_ifs with ht
          · exact ⟨_, rfl, .behind hr hs ht⟩
          · exact ⟨_, rfl, .lost hr hs (UInt64.not_lt.mp ht)⟩

lemma check_of_emptyAnswer (h : EmptyAnswer s exitRootsByGER ger) :
    checkL1SyncGlobalExitRootEnoughToProcessBatch s exitRootsByGER ger = none := by
  obtain ⟨hz, hl, hs, hr⟩ := h
  rw [checkL1SyncGlobalExitRootEnoughToProcessBatch, if_neg hz, exitRoot_of_not_stores hl hs]
  simp only [hr]

/-- The check guards the execution exactly if the trusted node never answers so for a missing root.
-/
theorem guards_iff_not_emptyAnswer (s : LocalState ε)
    (exitRootsByGER : Hash → Except ε (Option UInt64)) (ger : Hash) :
    Guards s exitRootsByGER ger ↔ ¬ EmptyAnswer s exitRootsByGER ger := by
  constructor
  · intro hgr han
    rcases hgr.enough (check_of_emptyAnswer han) with hz | hst
    · exact han.1 hz
    · exact han.2.2.1 hst
  intro han
  refine ⟨fun hnn => ?_, fun hz h => explained hz h han, ?_⟩
  · by_contra hnot
    obtain ⟨hz, hst⟩ := not_or.mp hnot
    obtain ⟨e, hsm, -⟩ := explained hz hst han
    rw [hnn] at hsm
    cases hsm
  intro env now batch status tx e hge he hsm
  have hf := he batch.number
  rw [hsm] at hf
  rw [processTrustedBatch, hge, hf]
  rfl

/-- The state has no exit roots, and the trusted node answers with `null`. -/
theorem guards_fails_of_null : ¬ Guards (⟨[], none, .error ()⟩ : LocalState Unit)
    (fun _ => .ok none) (Sequencer.plainHash 1) := by
  intro hg
  rcases hg.enough (by decide) with hz | ⟨row, hr, -⟩
  · exact absurd hz (by decide)
  · cases hr

end EthdaNode.Synchronizer.GlobalExitRoots
