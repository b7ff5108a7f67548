import EthdaNode.State.Transaction
import EthdaNode.Support.StreamReader

/-!
# The Etrog batch codec

`EncodeBatchV2` and `DecodeBatchV2`. Batch data is a sequence of L2 blocks; a
block is the marker `changeL2Block`, a header of two 32-bit numbers and the
transactions of the block. A transaction is an RLP list followed by `R`, `S`,
`V` and the efficiency percentage.

Positions of the decoder are numbers; the length arithmetic of `decodeTxRLP`
and `decodeRLPListLengthFromOffset` is that of `uint64`, with wrap-around.
-/

namespace EthdaNode.State

open Go Go.Outcome UInt64

structure L2TxRaw where
  tx : LegacyTx
  efficiencyPercentage : UInt8
  deriving DecidableEq

structure L2BlockRaw where
  deltaTimestamp : UInt32
  indexL1InfoTree : UInt32
  transactions : List L2TxRaw
  deriving DecidableEq

structure BatchRawV2 where
  blocks : List L2BlockRaw
  deriving DecidableEq

def changeL2Block : UInt8 := 0x0b

def headerByteLength : UInt64 := 1
def sLength : UInt64 := 32
def rLength : UInt64 := 32
def vLength : UInt64 := 1
def c0 : UInt64 := 192
def shortRlp : UInt64 := 55
def f7 : UInt64 := 247
def efficiencyPercentageByteLength : UInt64 := 1

/-! ## Encoding -/

def serializeUint32 (value : UInt32) : List UInt8 :=
  [(value >>> 24).toUInt8, (value >>> 16).toUInt8, (value >>> 8).toUInt8, value.toUInt8]

def encodeBlockHeaderV2 (batchData : List UInt8) (block : L2BlockRaw) :
    Outcome GoError (List UInt8) :=
  .ok (batchData ++ [changeL2Block] ++ serializeUint32 block.deltaTimestamp ++
    serializeUint32 block.indexL1InfoTree)

variable (geth : GoEthereum)

def encodeTxRLP (batchData : List UInt8) (tx : L2TxRaw) : Outcome GoError (List UInt8) := do
  let rlpTx ← (prepareRPLTxData geth tx.tx).mapErr (.wrap "can't encode tx to RLP: ")
  .ok (batchData ++ rlpTx ++ [tx.efficiencyPercentage])

def encodeBlockV2 (batchData : List UInt8) (block : L2BlockRaw) : Outcome GoError (List UInt8) := do
  let batchData ← (encodeBlockHeaderV2 batchData block).mapErr (.wrap "can't encode block header: ")
  block.transactions.foldlM (fun batchData tx => (encodeTxRLP geth batchData tx).mapErr
      (.wrap "can't encode tx: "))
    batchData

def encodeBatchV2 (batch : Option BatchRawV2) : Outcome GoError (List UInt8) :=
  match batch with
  | none => .err (.wrap "batch is nil: " .errInvalidBatchV2)
  | some batch =>
    if batch.blocks.length = 0 then
      .err (.wrap "a batch need minimum a L2Block: " .errInvalidBatchV2)
    else
      batch.blocks.foldlM (encodeBlockV2 geth) []

variable (txsData : GoBytes)

def deserializeUint32 (pos : ℕ) : Outcome GoError (ℕ × UInt32) :=
  if (txsData.bytes.length : ℤ) - pos < 4 then
    .err (.wrap "can't get u32 because not enough data: " .errInvalidBatchV2)
  else do
    let b₀ ← index txsData.bytes pos
    let b₁ ← index txsData.bytes (pos + 1)
    let b₂ ← index txsData.bytes (pos + 2)
    let b₃ ← index txsData.bytes (pos + 3)
    .ok (pos + 4, b₀.toUInt32 <<< 24 ||| b₁.toUInt32 <<< 16 ||| b₂.toUInt32 <<< 8 ||| b₃.toUInt32)

def decodeBlockHeader (pos : ℕ) : Outcome GoError (ℕ × L2BlockRaw) := do
  let (pos, deltaTimestamp) ← (deserializeUint32 txsData pos).mapErr
    (.wrap "can't get deltaTimestamp: ")
  let (pos, indexL1InfoTree) ← (deserializeUint32 txsData pos).mapErr
    (.wrap "can't get leafIndex: ")
  .ok (pos, ⟨deltaTimestamp, indexL1InfoTree, []⟩)

def decodeRLPListLengthFromOffset (offset : ℕ) : Outcome GoError UInt64 := do
  let txDataLength := ofNat txsData.bytes.length
  let first ← index txsData.bytes offset
  let num := first.toUInt64
  if num < c0 then
    let digits := String.ofList (HexText.text num.toNat)
    .err (.wrap s!"first byte of tx ({digits}) is < 0xc0: " .errInvalidRLP)
  else
    let length := num - c0
    if length > shortRlp then
      let pos64 := ofNat offset
      let lengthInByteOfSize := num - f7
      if pos64 + headerByteLength + lengthInByteOfSize > txDataLength then
        .err (.wrap "not enough data to get length: " .errInvalidRLP)
      else
        let lengthBytes ← slice txsData.bytes (pos64 + 1).toNat
          (pos64 + 1 + lengthInByteOfSize).toNat
        let n ← ofExcept (fun e => .wrap "error parsing length value: " (.parseUint e))
          (HexText.parseUint (HexText.encodeToString lengthBytes))
        .ok (n + num - f7 + headerByteLength)
    else .ok (length + headerByteLength)

def decodeTxRLP (txsData : GoBytes) (offset : ℕ) : Outcome GoError (ℕ × L2TxRaw) := do
  let length ← (decodeRLPListLengthFromOffset txsData offset).mapErr
    (.wrap s!"can't get RLP length (offset={offset}): ")
  let endPos := ofNat offset + length + rLength + sLength + vLength + efficiencyPercentageByteLength
  let lenData := ofNat txsData.bytes.length
  if endPos > lenData then
    .err (.wrap s!"can't get tx because not enough data (endPos={endPos} lenData={lenData}): "
      .errInvalidBatchV2)
  else
    let _fullDataTx ← slice txsData.bytes offset endPos.toNat
    let dataStart := ofNat offset + length
    let txInfo ← slice txsData.bytes offset dataStart.toNat
    let rData ← slice txsData.bytes dataStart.toNat (dataStart + rLength).toNat
    let sData ← slice txsData.bytes (dataStart + rLength).toNat
      (dataStart + rLength + sLength).toNat
    let vData ← slice txsData.bytes (dataStart + rLength + sLength).toNat
      (dataStart + rLength + sLength + vLength).toNat
    let efficiencyPercentage ← index txsData.bytes (dataStart + rLength + sLength + vLength).toNat
    let rlpFields ← ofExcept .rlp (geth.decodeBytes txInfo)
    let legacyTx ← rlpFieldsToLegacyTx geth rlpFields vData rData sData
    .ok (endPos.toNat, ⟨legacyTx, efficiencyPercentage⟩)

structure DecodeState where
  pos : ℕ
  blocks : List L2BlockRaw
  currentBlock : Option L2BlockRaw
  deriving DecidableEq

def DecodeState.allBlocks (s : DecodeState) : List L2BlockRaw :=
  match s.currentBlock with
  | some block => s.blocks ++ [block]
  | none => s.blocks

/-- The loop body of `DecodeBatchV2`. A failed `decodeBlockHeader` has reset
the position its caller reports to 0. -/
def decodeBatchV2Body (txsData : GoBytes) (s : DecodeState) :
    Outcome GoError (Next DecodeState BatchRawV2) := do
  let first ← index txsData.bytes s.pos
  if first = changeL2Block then
    let (pos, block) ← (decodeBlockHeader txsData (s.pos + 1)).mapErr
      (.wrap "pos: 0 can't decode new BlockHeader: ")
    .ok (.next ⟨pos, s.allBlocks, some block⟩)
  else
    match s.currentBlock with
    | none =>
      match decodeTxRLP geth txsData s.pos with
      | .ok _ => .err .errBatchV2DontStartWithChangeL2Block
      | .err _ =>
        .err (.wrap "no ChangeL2Block neither valid Tx, batch malformed : " .errInvalidBatchV2)
      | .panic => .panic
      | .hang => .hang
    | some block =>
      let (pos, tx) ← (decodeTxRLP geth txsData s.pos).mapErr (.wrap "can't decode transactions: ")
      .ok (.next ⟨pos, s.blocks, some { block with transactions := block.transactions ++ [tx] }⟩)

def decodeBatchV2 (txsData : GoBytes) : Outcome GoError BatchRawV2 :=
  loop (StreamReader.unread txsData.bytes DecodeState.pos)
    (decodeBatchV2Body geth txsData) (fun s => ⟨s.allBlocks⟩)
    txsData.bytes.length ⟨0, [], none⟩

end EthdaNode.State
