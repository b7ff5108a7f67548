import EthdaNode.State.Helper

/-!
# Transactions in the worker

`TxTracker`, the batch resources a transaction is checked against, and the
errors of the worker. A tracker is an object that the parts of the worker
share: `ptr` is its address, so that a write through one pointer can be carried
over to every place that holds the object. The fields `HashStr` and `FromStr`
are the renderings of `Hash` and `From` and are not kept apart from them.
-/

namespace EthdaNode.Sequencer

open State

structure Hash where
  bytes : List UInt8
  length_eq : bytes.length = 32
  deriving DecidableEq

/-! ## Resources -/

structure ZKCounters where
  gasUsed : UInt64
  keccakHashes : UInt32
  poseidonHashes : UInt32
  poseidonPaddings : UInt32
  memAligns : UInt32
  arithmetics : UInt32
  binaries : UInt32
  steps : UInt32
  sha256HashesV2 : UInt32
  deriving DecidableEq

def ZKCounters.fits (z other : ZKCounters) : Bool × String :=
  if other.gasUsed > z.gasUsed then (false, "CumulativeGas")
  else if other.keccakHashes > z.keccakHashes then (false, "KeccakHashes")
  else if other.poseidonHashes > z.poseidonHashes then (false, "PoseidonHashes")
  else if other.poseidonPaddings > z.poseidonPaddings then (false, "PoseidonPaddings")
  else if other.memAligns > z.memAligns then (false, "UsedMemAligns")
  else if other.arithmetics > z.arithmetics then (false, "UsedArithmetics")
  else if other.binaries > z.binaries then (false, "UsedBinaries")
  else if other.steps > z.steps then (false, "UsedSteps")
  else if other.sha256HashesV2 > z.sha256HashesV2 then (false, "UsedSha256Hashes_V2")
  else (true, "")

structure BatchResources where
  zkCounters : ZKCounters
  bytes : UInt64
  deriving DecidableEq

def BatchResources.fits (r other : BatchResources) : Bool × String :=
  if other.bytes > r.bytes then (false, "Bytes")
  else r.zkCounters.fits other.zkCounters

/-- The closure `neededCounter` of `getNeededZKCounters`: the needed counter and
the new high reserved counter. -/
def neededCounter (highCounter usedCounter reservedCounter : UInt32) : UInt32 × UInt32 :=
  if reservedCounter < usedCounter then (usedCounter + highCounter, highCounter)
  else
    let diffReserved := reservedCounter - usedCounter
    if diffReserved > highCounter then (usedCounter + diffReserved, diffReserved)
    else (usedCounter + highCounter, highCounter)

/-- The gas part of `getNeededZKCounters`. It leaves the new high counter at 0 if less is reserved
than used. -/
def neededGas (highGas usedGas reservedGas : UInt64) : UInt64 × UInt64 :=
  if reservedGas < usedGas then (usedGas + highGas, 0)
  else
    let diffReserved := reservedGas - usedGas
    if diffReserved > highGas then (usedGas + diffReserved, diffReserved)
    else (usedGas + highGas, highGas)

def getNeededZKCounters (high used reserved : ZKCounters) : ZKCounters × ZKCounters :=
  let arithmetics := neededCounter high.arithmetics used.arithmetics reserved.arithmetics
  let binaries := neededCounter high.binaries used.binaries reserved.binaries
  let keccakHashes := neededCounter high.keccakHashes used.keccakHashes reserved.keccakHashes
  let memAligns := neededCounter high.memAligns used.memAligns reserved.memAligns
  let poseidonHashes :=
    neededCounter high.poseidonHashes used.poseidonHashes reserved.poseidonHashes
  let poseidonPaddings := neededCounter high.poseidonPaddings
    used.poseidonPaddings reserved.poseidonPaddings
  let sha256HashesV2 :=
    neededCounter high.sha256HashesV2 used.sha256HashesV2 reserved.sha256HashesV2
  let steps := neededCounter high.steps used.steps reserved.steps
  let gasUsed := neededGas high.gasUsed used.gasUsed reserved.gasUsed
  (⟨gasUsed.1, keccakHashes.1, poseidonHashes.1, poseidonPaddings.1, memAligns.1,
      arithmetics.1, binaries.1, steps.1, sha256HashesV2.1⟩,
    ⟨gasUsed.2, keccakHashes.2, poseidonHashes.2, poseidonPaddings.2, memAligns.2,
      arithmetics.2, binaries.2, steps.2, sha256HashesV2.2⟩)

/-- The limits of `state.BatchConstraintsCfg` on the counters. -/
structure BatchConstraintsCfg where
  maxCumulativeGasUsed : UInt64
  maxKeccakHashes : UInt32
  maxPoseidonHashes : UInt32
  maxPoseidonPaddings : UInt32
  maxMemAligns : UInt32
  maxArithmetics : UInt32
  maxBinaries : UInt32
  maxSteps : UInt32
  maxSHA256Hashes : UInt32
  deriving DecidableEq

def BatchConstraintsCfg.isWithinConstraints (c : BatchConstraintsCfg)
    (counters : ZKCounters) : Bool :=
  counters.gasUsed ≤ c.maxCumulativeGasUsed && counters.keccakHashes ≤ c.maxKeccakHashes &&
    counters.poseidonHashes ≤ c.maxPoseidonHashes &&
    counters.poseidonPaddings ≤ c.maxPoseidonPaddings &&
    counters.memAligns ≤ c.maxMemAligns &&
    counters.arithmetics ≤ c.maxArithmetics &&
    counters.binaries ≤ c.maxBinaries &&
    counters.steps ≤ c.maxSteps &&
    counters.sha256HashesV2 ≤ c.maxSHA256Hashes

/-! ## Trackers -/

/-- `TxTracker`, with the fields the worker uses. Times and durations are in
nanoseconds. -/
structure TxTracker where
  ptr : ℕ
  hash : Hash
  fromAddr : Address
  nonce : UInt64
  gasPrice : ℤ
  cost : ℤ
  bytes : UInt64
  usedZKCounters : ZKCounters
  reservedZKCounters : ZKCounters
  receivedAt : ℤ
  ip : String
  failedReason : Option String
  deriving DecidableEq

/-- What go-ethereum computes from a signed transaction: `Transaction.Hash` and,
with the signer of EIP-155, its sender. -/
structure Signer where
  hash : LegacyTx → Hash
  sender : LegacyTx → Except String Address

inductive TrackerError where
  | getSender (err : String)
  | encode (err : GoError)
  deriving DecidableEq

/-- `newTxTracker`; `ptr` and `now` are the address of the new object and the
current time. -/
def newTxTracker (geth : GoEthereum) (signer : Signer) (tx : LegacyTx)
    (usedZKCounters reservedZKCounters : ZKCounters) (ip : String) (ptr : ℕ)
    (now : ℤ) : Go.Outcome TrackerError TxTracker := do
  let addr ← Go.Outcome.ofExcept .getSender (signer.sender tx)
  let rawTx ← Go.Outcome.mapErr .encode (encodeTransactionWithoutEffectivePercentage geth tx)
  .ok {
    ptr := ptr
    hash := signer.hash tx
    fromAddr := addr
    nonce := tx.nonce
    gasPrice := tx.gasPrice
    cost := tx.gasPrice * tx.gas.toNat + tx.value
    bytes := UInt64.ofNat rawTx.length + efficiencyPercentageByteLength
    usedZKCounters := usedZKCounters
    reservedZKCounters := reservedZKCounters
    receivedAt := now
    ip := ip
    failedReason := none }

variable (tx : TxTracker)

def TxTracker.updateZKCounters (used reserved : ZKCounters) : TxTracker :=
  { tx with usedZKCounters := used, reservedZKCounters := reserved }

def TxTracker.expired (maxTime now : ℤ) : Bool := tx.receivedAt + maxTime < now

/-- The errors of the worker. The last three are the texts
`error getting … from hashdb service, error: …`. -/
inductive WorkerError where
  | errDuplicatedNonce
  | errIntrinsicInvalidNonce
  | errInvalidIP
  | errOutOfCounters
  | errTransactionsListEmpty
  | errNoFittingTransaction
  | lastStateRoot (err : String)
  | nonce (addr : Address) (err : String)
  | balance (addr : Address) (err : String)
  deriving DecidableEq

def intrinsicInvalidNonceText : String := "nonce intrinsic error"

/-- The resources that a transaction needs in a batch with the given high reserved counters. -/
def TxTracker.neededResources (high : ZKCounters) : BatchResources :=
  ⟨(getNeededZKCounters high tx.usedZKCounters tx.reservedZKCounters).1, tx.bytes⟩

def plainHash (id : UInt8) : Hash := ⟨List.replicate 31 0 ++ [id], by simp⟩

def zeroCounters : ZKCounters := ⟨0, 0, 0, 0, 0, 0, 0, 0, 0⟩

/-- A transaction of the zero address without counters; it has 73 bytes in a
batch. -/
def plainTx (id : UInt8) (nonce : UInt64) (gasPrice cost : ℤ) : TxTracker :=
  ⟨id.toNat, plainHash id, cropAddress [], nonce, gasPrice, cost, 73, zeroCounters,
    zeroCounters, 0, "", none⟩

end EthdaNode.Sequencer
