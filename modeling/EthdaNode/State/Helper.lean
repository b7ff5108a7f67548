import EthdaNode.State.EncodingBatchV2

/-!
# The transaction stream codec

`EncodeTransactions` and `DecodeTxs`, the codec of batches before Etrog and of
forced batches. From fork Dragonfruit on, every transaction is followed by its
efficiency percentage.
-/

namespace EthdaNode.State

open Go Go.Outcome HexText

def forkIdDragonfruit : UInt64 := 5
def forkIdEtrog : UInt64 := 7

def decodeHex (str : List Char) : Except HexText.DecodeError (List UInt8) :=
  let str := if ['0', 'x'] <+: str then str.drop 2 else str
  let str := if str.length % 2 ≠ 0 then '0' :: str else str
  decodeString str

variable (geth : GoEthereum)

def encodeTransactionsBody (effectivePercentages : List UInt8) (forkID : UInt64)
    (batchL2Data : List UInt8) (txi : LegacyTx × ℕ) :
    Outcome GoError (List UInt8) := do
  let txData ← prepareRPLTxData geth txi.1
  if forkID ≥ forkIdDragonfruit then
    let percentage ← index effectivePercentages txi.2
    let effectivePercentageAsHex ←
      ofExcept .hex (decodeHex (text percentage.toNat))
    .ok (batchL2Data ++ txData ++ effectivePercentageAsHex)
  else .ok (batchL2Data ++ txData)

variable (txs : List LegacyTx)

def encodeTransactions (effectivePercentages : List UInt8) (forkID : UInt64) :
    Outcome GoError (List UInt8) :=
  txs.zipIdx.foldlM (encodeTransactionsBody geth effectivePercentages forkID) []

def encodeTransaction (tx : LegacyTx) (effectivePercentage : UInt8) (forkID : UInt64) :
    Outcome GoError (List UInt8) :=
  encodeTransactions geth [tx] [effectivePercentage] forkID

def encodeTransactionsWithoutEffectivePercentage : Outcome GoError (List UInt8) :=
  txs.foldlM (fun batchL2Data tx => do
    let txData ← prepareRPLTxData geth tx
    .ok (batchL2Data ++ txData)) []

def encodeTransactionWithoutEffectivePercentage (tx : LegacyTx) : Outcome GoError (List UInt8) :=
  encodeTransactionsWithoutEffectivePercentage geth [tx]

structure DecodeTxsState where
  pos : UInt64
  txs : List LegacyTx
  efficiencyPercentages : List UInt8
  deriving DecidableEq

structure DecodedTxs where
  txs : List LegacyTx
  txsData : List UInt8
  efficiencyPercentages : List UInt8
  deriving DecidableEq

variable (txsData : GoBytes)

/-- The length of an RLP list without its first byte in the loop of `DecodeTxs`. At a length that is
cut off the caller returns the `err` of the enclosing scope, which is nil. -/
def decodeTxsLength (pos num : UInt64) : Outcome GoError (Option UInt64) :=
  let length := num - c0
  if length > shortRlp then
    if pos + 1 + num - f7 > UInt64.ofNat txsData.bytes.length then .ok none
    else do
      let lengthBytes ← slice txsData.bytes (pos + 1).toNat (pos + 1 + num - f7).toNat
      let n ← ofExcept .parseUint (parseUint (encodeToString lengthBytes))
      if n + num < f7 then .err .errInvalidData
      else .ok (some (n + num - f7))
  else .ok (some length)

variable (forkID : UInt64)

/-- The iteration of the loop of `DecodeTxs` once the length of the list is
computed; `none` is the early return. -/
def decodeTxsAt (s : DecodeTxsState) :
    Option UInt64 → Outcome GoError (Next DecodeTxsState DecodedTxs)
  | none => .ok (.stop ⟨[], txsData.bytes, []⟩)
  | some length =>
    let txDataLength := UInt64.ofNat txsData.bytes.length
    let pos := s.pos
    let endPos := pos + length + rLength + sLength + vLength + headerByteLength
    let endPos :=
      if forkID ≥ forkIdDragonfruit then endPos + efficiencyPercentageByteLength
      else endPos
    if endPos > txDataLength then .err .errInvalidData
    else if endPos < pos then .err .errInvalidData
    else do
      let _fullDataTx ← slice txsData.bytes pos.toNat endPos.toNat
      let dataStart := pos + length + headerByteLength
      let txInfo ← slice txsData.bytes pos.toNat dataStart.toNat
      let rData ← slice txsData.bytes dataStart.toNat (dataStart + rLength).toNat
      let sData ← slice txsData.bytes (dataStart + rLength).toNat
        (dataStart + rLength + sLength).toNat
      let vData ← slice txsData.bytes (dataStart + rLength + sLength).toNat
        (dataStart + rLength + sLength + vLength).toNat
      let efficiencyPercentages ←
        if forkID ≥ forkIdDragonfruit then do
          let efficiencyPercentage ← slice txsData.bytes
            (dataStart + rLength + sLength + vLength).toNat endPos.toNat
          let percentage ← index efficiencyPercentage 0
          .ok (s.efficiencyPercentages ++ [percentage])
        else .ok s.efficiencyPercentages
      let rlpFields ←
        ofExcept (fun _ => .errInvalidData) (geth.decodeBytes txInfo)
      let legacyTx ← rlpFieldsToLegacyTx geth rlpFields vData rData sData
      .ok (.next ⟨endPos, s.txs ++ [legacyTx], efficiencyPercentages⟩)

/-- The loop body of `DecodeTxs`. On an error the function also returns empty
lists. -/
def decodeTxsBody (s : DecodeTxsState) : Outcome GoError (Next DecodeTxsState DecodedTxs) := do
  let first ← slice txsData.bytes s.pos.toNat (s.pos + 1).toNat
  let num ← ofExcept .parseUint (parseUint (encodeToString first))
  if num < c0 then .err .errInvalidData
  else
    let length ← decodeTxsLength txsData s.pos num
    decodeTxsAt geth txsData forkID s length

/-- `DecodeTxs`. Its early return for empty data is the loop that ends before
its first iteration. -/
def decodeTxs : Outcome GoError DecodedTxs :=
  loop (StreamReader.unread txsData.bytes fun s => s.pos.toNat) (decodeTxsBody geth txsData forkID)
    (fun s => ⟨s.txs, txsData.bytes, s.efficiencyPercentages⟩)
    txsData.bytes.length ⟨0, [], []⟩

structure ForcedBatchRawV2 where
  transactions : List L2TxRaw
  deriving DecidableEq

def decodeForcedBatchV2 : Outcome GoError ForcedBatchRawV2 := do
  let decoded ← decodeTxs geth txsData forkIdEtrog
  let lenPercentages := decoded.efficiencyPercentages.length
  let lenTxs := decoded.txs.length
  if lenPercentages ≠ lenTxs then
    .err (.wrap
      s!"error decoding len(efficiencyPercentages) != len(txs). len(efficiencyPercentages)={lenPercentages}, len(txs)={lenTxs} : "
      .errInvalidRLP)
  else
    let transactions ← decoded.txs.zipIdx.mapM fun txi => do
      let percentage ← index decoded.efficiencyPercentages txi.2
      pure ⟨txi.1, percentage⟩
    .ok ⟨transactions⟩

end EthdaNode.State
