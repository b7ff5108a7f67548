import EthdaNode.Sequencer.TxTracker

/-!
# Requests to the executor

The request for a batch, the answer of the executor, how an answer becomes an error in
`sendBatchRequestToExecutorV2`, and the conversion of an answer. The context id of a request
is a random text and is left out, as are the parts of an answer that are only passed on to
the trace and to the log.
-/

namespace EthdaNode.State

open Sequencer (Hash ZKCounters)
open Go Go.Outcome

/-! ## Errors of the executor -/

inductive RomError where
  | unspecified | noError | outOfGas | stackOverflow | stackUnderflow | maxCodeSizeExceeded
  | contractAddressCollision | executionReverted | outOfCountersStep | outOfCountersKeccak
  | outOfCountersBinary | outOfCountersMem | outOfCountersArith | outOfCountersPadding
  | outOfCountersPoseidon | outOfCountersSha | invalidJump | invalidOpcode | invalidStatic
  | invalidBytecodeStartsEf | intrinsicInvalidSignature | intrinsicInvalidChainId
  | intrinsicInvalidNonce | intrinsicInvalidGasLimit | intrinsicInvalidBalance
  | intrinsicInvalidBatchGasLimit | intrinsicInvalidSenderCode | intrinsicTxGasOverflow
  | batchDataTooBig | unsupportedForkId | invalidRlp | invalidDecodeChangeL2Block
  | invalidNotFirstTxChangeL2Block | invalidTxChangeL2BlockLimitTimestamp
  | invalidTxChangeL2BlockMinTimestamp | unknown
  deriving DecidableEq

namespace RomError

def isROMOutOfCountersError : RomError → Bool
  | outOfCountersStep | outOfCountersKeccak | outOfCountersBinary | outOfCountersMem
  | outOfCountersArith | outOfCountersPadding | outOfCountersPoseidon | outOfCountersSha => true
  | _ => false

def isIntrinsicError : RomError → Bool
  | intrinsicInvalidSignature | intrinsicInvalidChainId | intrinsicInvalidNonce
  | intrinsicInvalidGasLimit | intrinsicInvalidBalance | intrinsicInvalidBatchGasLimit
  | intrinsicInvalidSenderCode | intrinsicTxGasOverflow => true
  | _ => false

def isInvalidL2Block : RomError → Bool
  | invalidDecodeChangeL2Block | invalidNotFirstTxChangeL2Block
  | invalidTxChangeL2BlockLimitTimestamp | invalidTxChangeL2BlockMinTimestamp => true
  | _ => false

end RomError

inductive ExecutorError where
  | noError
  | other (code : ℕ)
  deriving DecidableEq

/-! ## Requests and answers -/

structure L1DataV2 where
  globalExitRoot : Hash
  blockHashL1 : Hash
  minTimestamp : UInt64
  deriving DecidableEq

/-- `executor.ProcessBatchRequestV2`; a hash that is not set has no bytes. -/
structure ProcessBatchRequestV2 where
  oldBatchNum : UInt64
  coinbase : Address
  forcedBlockhashL1 : List UInt8
  batchL2Data : List UInt8
  oldStateRoot : Hash
  l1InfoRoot : Hash
  l1InfoTreeData : List (UInt32 × L1DataV2)
  oldAccInputHash : Hash
  timestampLimit : UInt64
  updateMerkleTree : Bool
  chainId : UInt64
  forkId : UInt64
  skipFirstChangeL2Block : Bool
  skipWriteBlockInfoRoot : Bool
  skipVerifyL1InfoRoot : UInt32
  executionMode : UInt64
  deriving DecidableEq

/-- `executor.ProcessTransactionResponseV2`. `traceParses` says whether the numbers in its
trace can be parsed. -/
structure ProcessTransactionResponseV2 where
  txHash : Hash
  error : RomError
  rlpTx : List UInt8
  traceParses : Bool
  stateRoot : Hash
  effectivePercentage : UInt32
  deriving DecidableEq

structure ProcessBlockResponseV2 where
  blockNumber : UInt64
  timestamp : UInt64
  coinbase : Address
  gasLimit : UInt64
  ger : Hash
  blockHashL1 : Hash
  gasUsed : UInt64
  blockInfoRoot : Hash
  blockHash : Hash
  responses : List ProcessTransactionResponseV2
  deriving DecidableEq

/-- `executor.ProcessBatchResponseV2`; `addressesParse` says whether the nonces and balances of the
addresses can be parsed. -/
structure ProcessBatchResponseV2 where
  newStateRoot : Hash
  newAccInputHash : Hash
  newLocalExitRoot : Hash
  usedZkCounters : ZKCounters
  blockResponses : List ProcessBlockResponseV2
  addressesParse : Bool
  flushId : UInt64
  storedFlushId : UInt64
  proverId : String
  error : ExecutorError
  errorRom : RomError
  deriving DecidableEq

/-- `state.ProcessTransactionResponse`; the transaction is its binary form, if the executor
returned one. -/
structure ProcessTransactionResponse where
  txHash : Hash
  romError : RomError
  tx : Option (List UInt8)
  stateRoot : Hash
  effectivePercentage : UInt32
  deriving DecidableEq

structure ProcessBlockResponse where
  blockNumber : UInt64
  timestamp : UInt64
  coinbase : Address
  gasLimit : UInt64
  globalExitRoot : Hash
  blockHashL1 : Hash
  gasUsed : UInt64
  blockInfoRoot : Hash
  blockHash : Hash
  transactionResponses : List ProcessTransactionResponse
  deriving DecidableEq

/-- `state.ProcessBatchResponse` of an answer with version 2. -/
structure BatchResponse where
  newStateRoot : Hash
  newAccInputHash : Hash
  newLocalExitRoot : Hash
  usedZkCounters : ZKCounters
  blockResponses : List ProcessBlockResponse
  flushID : UInt64
  storedFlushID : UInt64
  proverID : String
  isRomOOCError : Bool
  romErrorV2 : RomError
  deriving DecidableEq

inductive StateError where
  | notFound | stateNotSynchronized | unexpectedBatch | lastBatchShouldBeClosed
  | batchAlreadyClosed | invalidBatchNumber | timestampGE | uniqueViolation | executorNil
  | transport | executor (error : ExecutorError) | rom (error : RomError)
  | l2BlockInvalid | parsingTrace | parsingAddress | decodingTx | noRows | storage
  deriving DecidableEq

variable (decodeTx : List UInt8 → Option (List UInt8))

/-- The transactions of a block: `decodeTx` is what `DecodeTx` makes of the bytes. -/
def convertToProcessTransactionResponseV2 (response : ProcessTransactionResponseV2) :
    Outcome StateError ProcessTransactionResponse := do
  if response.error.isInvalidL2Block then err .l2BlockInvalid
  else if !response.traceParses then err .parsingTrace
  else
    let tx ←
      if response.error ≠ .invalidRlp ∧ response.rlpTx ≠ [] then
        match decodeTx response.rlpTx with
        | some tx => ok (some tx)
        | none => err .decodingTx
      else ok none
    ok { txHash := response.txHash, romError := response.error, tx,
         stateRoot := response.stateRoot, effectivePercentage := response.effectivePercentage }

def convertToProcessBlockResponseV2 (response : ProcessBlockResponseV2) :
    Outcome StateError ProcessBlockResponse := do
  let transactionResponses ←
    response.responses.mapM (convertToProcessTransactionResponseV2 decodeTx)
  ok { blockNumber := response.blockNumber, timestamp := response.timestamp,
       coinbase := response.coinbase, gasLimit := response.gasLimit,
       globalExitRoot := response.ger, blockHashL1 := response.blockHashL1,
       gasUsed := response.gasUsed, blockInfoRoot := response.blockInfoRoot,
       blockHash := response.blockHash, transactionResponses }

def ProcessBatchResponseV2.txOOC (response : ProcessBatchResponseV2) : Bool :=
  response.blockResponses.any fun block =>
    block.responses.any fun tx => tx.error.isROMOutOfCountersError

def convertToProcessBatchResponseV2 (batchResponse : ProcessBatchResponseV2) :
    Outcome StateError BatchResponse := do
  let blockResponses ←
    batchResponse.blockResponses.mapM (convertToProcessBlockResponseV2 decodeTx)
  if !batchResponse.addressesParse then err .parsingAddress
  else
    ok { newStateRoot := batchResponse.newStateRoot,
         newAccInputHash := batchResponse.newAccInputHash,
         newLocalExitRoot := batchResponse.newLocalExitRoot,
         usedZkCounters := batchResponse.usedZkCounters, blockResponses,
         flushID := batchResponse.flushId, storedFlushID := batchResponse.storedFlushId,
         proverID := batchResponse.proverId,
         isRomOOCError :=
           batchResponse.txOOC || batchResponse.errorRom.isROMOutOfCountersError,
         romErrorV2 := batchResponse.errorRom }

/-- `sendBatchRequestToExecutorV2`: the answer, if there is one, and the error, also for an answer
with an error of the ROM. -/
def sendBatchRequestToExecutorV2 (executor : ProcessBatchRequestV2 → Option ProcessBatchResponseV2)
    (batchRequest : ProcessBatchRequestV2) :
    Option ProcessBatchResponseV2 × Option StateError :=
  match executor batchRequest with
  | none => (none, some .transport)
  | some batchResponse =>
    if batchResponse.error ≠ .noError then
      (some batchResponse, some (.executor batchResponse.error))
    else if batchResponse.errorRom ≠ .noError then
      (some batchResponse, some (.rom batchResponse.errorRom))
    else (some batchResponse, none)

variable {decodeTx : List UInt8 → Option (List UInt8)} {res : ProcessBatchResponseV2}
  {converted : BatchResponse}

lemma convert_spec (h : convertToProcessBatchResponseV2 decodeTx res = ok converted) :
    res.blockResponses.mapM (convertToProcessBlockResponseV2 decodeTx) =
    ok converted.blockResponses ∧ converted.newStateRoot = res.newStateRoot ∧
    converted.newAccInputHash = res.newAccInputHash ∧ converted.isRomOOCError =
    (res.txOOC || res.errorRom.isROMOutOfCountersError) ∧ converted.romErrorV2 = res.errorRom := by
  rw [convertToProcessBatchResponseV2, bind_ok_iff] at h
  obtain ⟨blockResponses, hblks, h⟩ := h
  split_ifs at h
  cases h
  exact ⟨hblks, rfl, rfl, rfl, rfl⟩

end EthdaNode.State
