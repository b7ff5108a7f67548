import EthdaNode.State.Executor

/-!
# Pre-execution in the pool

`StoreTx` executes a transaction before it stores it. What `PreProcessTransaction` returns is
given: an error, and a response with the errors of the transactions of each block.
-/

namespace EthdaNode.Pool

open Go Go.Outcome List State State.RomError

inductive PoolError where
  | gasLimit | preExecution (error : RomError) | outOfCounters | gasPrices | rejected
  deriving DecidableEq

/-- The error is that of the ROM, or `unknown` for every other one. A response without transaction
errors has `noError` for them. -/
structure Answer where
  error : Option RomError
  blockResponses : Option (List (List RomError))
  isExecutorLevelError : Bool
  isWithinConstraints : Bool

structure PreExecutionResponse where
  oocError : Bool
  oogError : Bool
  isExecutorLevelError : Bool
  txResponse : Option RomError
  deriving DecidableEq

def firstTx (blockResponses : List (List RomError)) : Outcome PoolError (Option RomError) :=
  if blockResponses = [] then ok none
  else do
    let block ← index blockResponses 0
    let tx ← index block 0
    ok (some tx)

variable (a : Answer)

def preExecuteTx : Outcome PoolError PreExecutionResponse :=
  match a.error with
  | some e =>
    if e.isROMOutOfCountersError = false ∧ e ≠ outOfGas then err (.preExecution e)
    else do
      let tx ← firstTx (a.blockResponses.getD [])
      ok ⟨e.isROMOutOfCountersError, e = outOfGas, false, tx⟩
  | none =>
    match a.blockResponses with
    | none => .panic
    | some blockResponses => do
      match ← firstTx blockResponses with
      | none => ok ⟨false, false, false, none⟩
      -- `OOCError` and `OOGError` are set to the error of the call, which is nil here
      | some tx => ok ⟨tx = noError && !a.isWithinConstraints, false, a.isExecutorLevelError, tx⟩

/-- The gas prices are read before the response, and `accepts` is what follows. The result is
whether the transaction was stored. -/
def storeTx (gasPrices : Bool) (accepts : RomError → Bool) : Outcome PoolError Bool :=
  match preExecuteTx a with
  | .err (.preExecution intrinsicInvalidBatchGasLimit) => err .gasLimit
  | .err e => err e
  | .panic => panic
  | .hang => hang
  | .ok response =>
    if response.isExecutorLevelError then ok false
    else if response.oocError then err .outOfCounters
    else if gasPrices = false then err .gasPrices
    else
      match response.txResponse with
      | none => panic
      | some tx => if accepts tx then ok true else err .rejected

/-- An error of the call, or without one that of the transaction, reports too few counters. -/
def ReportsOOC : Prop :=
  match a.error, a.blockResponses with
  | some e, _ => e.isROMOutOfCountersError
  | none, some ((tx :: _) :: _) => tx.isROMOutOfCountersError
  | _, _ => False

/-- `StoreTx` never panics, and never stores a transaction that is out of counters. -/
structure Gated : Prop where
  returns : ∀ gasPrices accepts, storeTx a gasPrices accepts ≠ .panic
  never : ReportsOOC a → ∀ gasPrices accepts, storeTx a gasPrices accepts ≠ ok true

variable {a}

lemma not_gated_of_panic (h : preExecuteTx a = .panic) : ¬Gated a := by
  intro hg
  exact hg.returns true (fun _ => true) (by simp [storeTx, h])

lemma gated_iff_of_ok {response : PreExecutionResponse} (h : preExecuteTx a = ok response) :
    Gated a ↔ response.isExecutorLevelError ∨ response.oocError ∨
      response.txResponse ≠ none ∧ ¬ReportsOOC a := by
  obtain ⟨ooc, oog, level, tx⟩ := response
  constructor
  · intro hg
    have hreturns := hg.returns true fun _ => true
    have hnever := fun hr => hg.never hr true fun _ => true
    cases level <;> cases ooc <;> cases tx <;> simp_all [storeTx]
  · intro hc
    constructor <;> cases level <;> cases ooc <;> cases tx <;> grind [storeTx]

/-- `StoreTx` keeps its gate exactly if the block that it reads has a transaction, there is a block
unless an error of the counters ends the check before, and the executor marks such an error of the
transaction as its own. -/
theorem gated_iff : Gated a ↔
    ((∀ e, a.error = some e → e.isROMOutOfCountersError ∨ e = outOfGas) →
      (a.blockResponses.getD []).head? ≠ some []) ∧
    (a.error = none ∨ a.error = some outOfGas → a.blockResponses.getD [] ≠ []) ∧
    (a.error = none → ReportsOOC a → a.isExecutorLevelError) := by
  cases herr : a.error with
  | some e =>
    have hno : outOfGas.isROMOutOfCountersError = false := rfl
    by_cases hread : e.isROMOutOfCountersError ∨ e = outOfGas
    · rcases hblocks : a.blockResponses.getD [] with _ | ⟨_ | ⟨tx, txs⟩, blocks⟩
      · have hpre : preExecuteTx a = ok ⟨e.isROMOutOfCountersError, e = outOfGas, false, none⟩ := by
          simp [preExecuteTx, herr, hblocks, firstTx]
          grind
        rw [gated_iff_of_ok hpre]
        grind
      · refine iff_of_false (not_gated_of_panic ?_) (by simp [hread])
        simp [preExecuteTx, herr, hblocks, firstTx, index]
        grind
      have hpre : preExecuteTx a = ok ⟨e.isROMOutOfCountersError, e = outOfGas, false, tx⟩ := by
        simp [preExecuteTx, herr, hblocks, firstTx, index]
        grind
      rw [gated_iff_of_ok hpre]
      grind [ReportsOOC]
    · have hpre : preExecuteTx a = err (.preExecution e) := by grind [preExecuteTx]
      refine iff_of_true ⟨?_, ?_⟩ ?_ <;> grind [storeTx]
  | none =>
    rcases hblocks : a.blockResponses with _ | _ | ⟨_ | ⟨tx, txs⟩, blocks⟩
    · exact iff_of_false (not_gated_of_panic (by simp [preExecuteTx, herr, hblocks])) (by simp)
    · have hpre : preExecuteTx a = ok ⟨false, false, false, none⟩ := by
        simp [preExecuteTx, herr, hblocks, firstTx]
      simp [gated_iff_of_ok hpre]
    · refine iff_of_false (not_gated_of_panic ?_) (by simp)
      simp [preExecuteTx, herr, hblocks, firstTx, index]
    have hpre : preExecuteTx a = ok ⟨tx = noError && !a.isWithinConstraints, false,
        a.isExecutorLevelError, tx⟩ := by
      simp [preExecuteTx, herr, hblocks, firstTx, index]
    have hno : noError.isROMOutOfCountersError = false := rfl
    have hr : ReportsOOC a ↔ tx.isROMOutOfCountersError := by simp [ReportsOOC, herr, hblocks]
    rw [gated_iff_of_ok hpre]
    grind

/-- The executor runs out of gas and returns no block. -/
theorem not_gated_outOfGas : ¬Gated ⟨some outOfGas, none, false, true⟩ := by
  intro h
  exact h.returns true (fun _ => true) rfl

end EthdaNode.Pool
