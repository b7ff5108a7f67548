import EthdaNode.State.Batches

/-!
# Retrying a reset

When the synchronization from L1 reports a reorganization, or that from the trusted node a
desynchronization, `Sync` resets the state and retries until the reset is done. The number of
the bad block is read from the last error, which a failed attempt replaces, and an error of
another kind counts as block 0.
-/

namespace EthdaNode.Synchronizer.ReorgRetry

open State Sequencer List

inductive SyncError where
  | reorg (blockNumber : UInt64)
  | deSync (l1BlockNumber : UInt64)
  | other (message : String)
  deriving DecidableEq

def getReorgErrorBlockNumber : SyncError → UInt64
  | .reorg blockNumber => blockNumber
  | _ => 0

/-- What an attempt gets: the first valid block, and the errors of the query and of the reset. -/
structure Attempt where
  checkReorg : Except String (Option L1Block)
  getPreviousError : Option String
  resetError : Option String

variable (blocks : Table L1Block.key) (a : Attempt)

/-- `GetPreviousBlockToBlockNumber`; the rows are in descending order. -/
def getPreviousBlockToBlockNumber (blockNumber : UInt64) : Except String L1Block :=
  match a.getPreviousError, blocks.rows.find? (·.blockNumber < blockNumber) with
  | some e, _ => .error e
  | none, none => .error "not found"
  | none, some block => .ok block

variable (badBlockNumber : UInt64)

/-- The first valid block, if it is before the bad one. -/
def Attempt.firstBlockOK : Option L1Block :=
  match a.checkReorg with
  | .ok (some block) => if block.blockNumber ≥ badBlockNumber then none else some block
  | _ => none

/-- `detectedReorgBadBlockExecuteReset`: the block to which the state is reset. -/
def detectedReorgBadBlockExecuteReset : Except String L1Block := do
  let firstBlockOK ← match a.firstBlockOK badBlockNumber with
    | some block => .ok block
    | none => getPreviousBlockToBlockNumber blocks a badBlockNumber
  match a.resetError with
  | some e => .error ("error executing reorg. Err: " ++ e)
  | none => .ok firstBlockOK

/-- The loop of `Sync` over its attempts: the block of the reset, if one is done. -/
def retryLoop (blocks : Table L1Block.key) : SyncError → List Attempt → Option L1Block
  | _, [] => none
  | err, a :: attempts =>
    match detectedReorgBadBlockExecuteReset blocks a (getReorgErrorBlockNumber err) with
    | .ok block => some block
    | .error e => retryLoop blocks (.other e) attempts

/-! ## The target -/

/-- A bad block, the error that reported it, attempts that fail for it and a last one that succeeds.
-/
structure Reported (blocks : Table L1Block.key) where
  badBlock : UInt64
  err : SyncError
  failed : List Attempt
  last : Attempt
  for_block : err = .reorg badBlock ∨ err = .deSync badBlock
  fails : ∀ a ∈ failed, ∃ e, detectedReorgBadBlockExecuteReset blocks a badBlock = .error e
  stored : ∃ block ∈ blocks.rows, block.blockNumber < badBlock
  getPrevious_ok : last.getPreviousError = none
  reset_ok : last.resetError = none

/-- The state is reset, to an earlier valid block or to the last stored one below the bad block. -/
def KeepsTarget (r : Reported blocks) : Prop :=
  ∃ block, retryLoop blocks r.err (r.failed ++ [r.last]) = some block ∧
    (r.last.firstBlockOK r.badBlock = some block ∨
      blocks.rows.find? (·.blockNumber < r.badBlock) = some block)

variable {blocks : Table L1Block.key}

lemma detected_zero (blocks : Table L1Block.key) (a : Attempt) :
    ∃ e, detectedReorgBadBlockExecuteReset blocks a 0 = .error e := by
  have hok : a.firstBlockOK 0 = none := by
    rw [Attempt.firstBlockOK]
    split
    · exact if_pos UInt64.zero_le
    · rfl
  have hf : blocks.rows.find? (·.blockNumber < 0) = none :=
    List.find?_eq_none.mpr fun blk _ => by simp
  rw [detectedReorgBadBlockExecuteReset, hok]
  dsimp only
  rw [getPreviousBlockToBlockNumber, hf]
  cases a.getPreviousError with
  | some e => exact ⟨e, rfl⟩
  | none => exact ⟨_, rfl⟩

/-- After an error of another kind the loop does not end. -/
lemma retryLoop_of_zero {err : SyncError} (h : getReorgErrorBlockNumber err = 0)
    (att : List Attempt) : retryLoop blocks err att = none := by
  induction att generalizing err with
  | nil => rfl
  | cons a att ih =>
    obtain ⟨e, he⟩ := detected_zero blocks a
    rw [retryLoop, h, he]
    exact ih rfl

variable (r : Reported blocks)

lemma detected_ok : ∃ blk, detectedReorgBadBlockExecuteReset blocks r.last r.badBlock = .ok blk ∧
    (r.last.firstBlockOK r.badBlock = some blk ∨ blocks.rows.find? (·.blockNumber < r.badBlock) =
    some blk) := by
  rw [detectedReorgBadBlockExecuteReset, r.reset_ok]
  cases hok : r.last.firstBlockOK r.badBlock with
  | some blk => exact ⟨blk, rfl, .inl rfl⟩
  | none =>
    obtain ⟨blk, hm, hlt⟩ := r.stored
    have hs : (blocks.rows.find? (·.blockNumber < r.badBlock)).isSome :=
      List.find?_isSome.mpr ⟨blk, hm, decide_eq_true hlt⟩
    obtain ⟨found, hf⟩ := Option.isSome_iff_exists.mp hs
    refine ⟨found, ?_, .inr hf⟩
    dsimp only
    rw [getPreviousBlockToBlockNumber, r.getPrevious_ok, hf]
    rfl

/-- The target is kept exactly when a reorganization is reset at the first attempt: a failed one
forgets the bad block, and that of a desynchronization is not read. -/
theorem keepsTarget_iff : KeepsTarget blocks r ↔ r.err = .reorg r.badBlock ∧ r.failed = [] := by
  constructor
  · rintro ⟨blk, hl, -⟩
    have her : r.err = .reorg r.badBlock := by
      apply r.for_block.resolve_right
      intro hd
      rw [hd, retryLoop_of_zero rfl] at hl
      exact absurd hl nofun
    refine ⟨her, eq_nil_iff_forall_not_mem.mpr ?_⟩
    intro a ha
    obtain ⟨first, rest, hf⟩ := exists_cons_of_ne_nil (ne_nil_of_mem ha)
    obtain ⟨e, he⟩ := r.fails first (hf ▸ mem_cons_self)
    rw [her, hf, cons_append, retryLoop, getReorgErrorBlockNumber, he] at hl
    dsimp only at hl
    rw [retryLoop_of_zero rfl] at hl
    exact absurd hl nofun
  · rintro ⟨her, hf⟩
    obtain ⟨blk, hok, ht⟩ := detected_ok r
    refine ⟨blk, ?_, ht⟩
    rw [her, hf, nil_append, retryLoop, getReorgErrorBlockNumber, hok]

def stored : Table L1Block.key := ⟨[⟨4, plainHash 4, plainHash 3, 0⟩], pairwise_singleton _ _⟩

/-- A reorganization of block 5 whose first reset fails. -/
def failedOnce : Reported stored where
  badBlock := 5
  err := .reorg 5
  failed := [⟨.ok none, none, some "deadlock"⟩]
  last := ⟨.ok none, none, none⟩
  for_block := .inl rfl
  fails := fun a ha => mem_singleton.mp ha ▸ ⟨"error executing reorg. Err: deadlock", rfl⟩
  stored := ⟨_, mem_singleton_self _, by decide⟩
  getPrevious_ok := rfl
  reset_ok := rfl

theorem not_keepsTarget_failedOnce : ¬KeepsTarget stored failedOnce := by
  rintro ⟨blk, hl, -⟩
  have hn : retryLoop stored failedOnce.err (failedOnce.failed ++ [failedOnce.last]) = none :=
    rfl
  exact absurd (hn.symm.trans hl) nofun

end EthdaNode.Synchronizer.ReorgRetry
