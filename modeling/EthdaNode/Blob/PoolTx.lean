import EthdaNode.Blob.BlobDB
import EthdaNode.Support.Goroutine

/-!
# Blob transactions in the pool

`AddTx` checks a blob transaction in the form of a legacy one, which has neither the hashes of
the blobs nor the sidecar nor the blob fee cap, and then its recipient and its fees. The digest
of the signature is that of the legacy form, and the sidecar is not looked at.
-/

namespace EthdaNode.Blob

open Sequencer (Hash plainHash)
open State (Address LegacyTx)

/-- `types.BlobTx`, with its sidecar. -/
structure PoolBlobTx where
  chainID : UInt64
  nonce : UInt64
  gasFeeCap : ℕ
  gas : UInt64
  toAddr : Address
  value : ℕ
  data : List UInt8
  v : UInt64
  r : ℕ
  s : ℕ
  blobFeeCap : ℕ
  blobHashes : List Hash
  sidecar : Option BlobTxSidecar

def blobGasPerBlob : ℕ := 131072

namespace PoolBlobTx

/-- `BlobTxToLegacyTx`, and `FilterLegacyTx` for a blob transaction. -/
def toLegacyTx (tx : PoolBlobTx) : LegacyTx where
  nonce := tx.nonce
  gasPrice := tx.gasFeeCap
  gas := tx.gas
  toAddr := some tx.toAddr
  value := tx.value
  data := tx.data
  v := (2 * tx.chainID + 35 + tx.v).toNat
  r := tx.r
  s := tx.s

def cost (tx : PoolBlobTx) : ℕ :=
  tx.gasFeeCap * tx.gas.toNat + tx.value + tx.blobFeeCap * (blobGasPerBlob * tx.blobHashes.length)

/-- The sidecar has a blob, a commitment and a proof for each hash, which is the versioned one of
the commitment. -/
def Complete (versionedHash : Bytes48 → Hash) (tx : PoolBlobTx) : Prop :=
  ∃ sc, tx.sidecar = some sc ∧ sc.Aligned ∧ tx.blobHashes = sc.commitments.map versionedHash

/-- The transactions differ only in what the legacy form lacks. -/
def SameSigned (tx tx' : PoolBlobTx) : Prop :=
  tx' = { tx with
    blobFeeCap := tx'.blobFeeCap, blobHashes := tx'.blobHashes, sidecar := tx'.sidecar }

end PoolBlobTx

/-- What `AddTx` reads and calls. `validateTx` and `StoreTx` get the legacy form, and `Put` does not
fail because of the stored bytes. -/
structure TxPool where
  digest : UInt64 → LegacyTx → Hash
  recover : Hash → ℕ × ℕ × ℕ → Option Address
  validateTx : LegacyTx → Except String Unit
  dasAddress : Address
  getLastL2Block : Except String UInt64
  getBalance : Address → Except String ℕ
  getExcessBlobGas : UInt64 → Except DbError UInt64
  getL2BlobFeeCap : UInt64 → ℕ
  put : Hash → Except String Unit
  hash : LegacyTx → Hash
  storeTx : LegacyTx → Except String Unit

namespace TxPool

variable (p : TxPool) (tx : PoolBlobTx)

def getBlobTxSender : Option Address :=
  let legacyTx := tx.toLegacyTx
  p.recover (p.digest tx.chainID legacyTx) (legacyTx.v, legacyTx.r, legacyTx.s)

/-- The excess blob gas; a block without one counts as 0. -/
def excessBlobGas (number : UInt64) : Except String UInt64 :=
  match p.getExcessBlobGas number with
  | .ok excess => .ok excess
  | .error .notFound => .ok 0
  | .error (.other e) => .error ("failed to get blob gas used and excess blob gas: " ++ e)

def validateBlobTx : Except String Unit := do
  let from_ ← (p.getBlobTxSender tx).elim (.error "invalid sender") .ok
  if tx.toAddr ≠ p.dasAddress then throw "blob transaction to address expect %v but got %v"
  let lastL2Block ← p.getLastL2Block
  let balance ← p.getBalance from_
  if balance < tx.cost then throw "insufficient funds for gas * price + value"
  if tx.value < tx.cost - tx.value then throw "value is less than blob cost, %s < %s"
  let excess ← p.excessBlobGas lastL2Block
  if tx.blobFeeCap < p.getL2BlobFeeCap excess then
    throw "blob gas fee is less than base gas fee, %s < %s"

def addTx : Except String Unit := do
  p.validateTx tx.toLegacyTx
  (p.validateBlobTx tx).mapError ("validate blob tx: " ++ ·)
  p.put (p.hash tx.toLegacyTx)
  p.storeTx tx.toLegacyTx

/-- The blobs of an accepted transaction are complete, and no other one with its signature is
accepted instead. -/
def BlobsSigned (versionedHash : Bytes48 → Hash) : Prop :=
  p.addTx tx = .ok () → tx.Complete versionedHash ∧
    ∀ tx', tx.SameSigned tx' → p.addTx tx' = .ok () → tx' = tx

variable {p tx}

/-- The blobs are signed exactly for the transactions that are not accepted: any other one is
accepted with another sidecar as well. -/
theorem blobsSigned_iff (p : TxPool) (tx : PoolBlobTx) (versionedHash : Bytes48 → Hash) :
    p.BlobsSigned tx versionedHash ↔ p.addTx tx ≠ .ok () := by
  constructor
  · intro h hok
    obtain ⟨⟨sc, hsc, -⟩, hon⟩ := h hok
    -- the sidecar is not looked at
    have heq : { tx with sidecar := none } = tx := hon _ rfl hok
    have hn : tx.sidecar = none := (congrArg PoolBlobTx.sidecar heq).symm
    exact absurd (hn.symm.trans hsc) nofun
  · intro hr hok
    exact absurd hok hr

/-- A transaction without a sidecar for a blob that nobody has. -/
def plainBlobTx (blobHash : Hash) : PoolBlobTx :=
  ⟨1, 0, 1, 21000, .zero, 10 ^ 6, [], 0, 1, 1, 1, [blobHash], none⟩

def plainPool (storeTx : Except String Unit) : TxPool :=
  ⟨fun _ _ => plainHash 0, fun _ _ => some (plainBlobTx (plainHash 1)).toAddr, fun _ => .ok (),
    (plainBlobTx (plainHash 1)).toAddr, .ok 1, fun _ => .ok (10 ^ 9), fun _ => .ok 0, fun _ => 1,
    fun _ => .ok (), fun _ => plainHash 0, fun _ => storeTx⟩

/-- It is accepted, and also with another hash under the same signature. -/
theorem other_blobHash_accepted : ∃ p : TxPool, p.addTx (plainBlobTx (plainHash 1)) = .ok () ∧
    (plainBlobTx (plainHash 1)).SameSigned (plainBlobTx (plainHash 2)) ∧
    p.addTx (plainBlobTx (plainHash 2)) = .ok () :=
  ⟨plainPool (.ok ()), rfl, rfl, rfl⟩

/-! ## Failed calls -/

abbrev BlobRows := List (Hash × PoolBlobTx)

def putTx (p : TxPool) (tx : PoolBlobTx) (rows : BlobRows) : Except String BlobRows := do
  p.validateTx tx.toLegacyTx
  (p.validateBlobTx tx).mapError ("validate blob tx: " ++ ·)
  p.put (p.hash tx.toLegacyTx)
  if rows.any (·.1 = p.hash tx.toLegacyTx) then throw "UNIQUE constraint failed: blocks.hash"
  else return rows ++ [(p.hash tx.toLegacyTx, tx)]

def addTxTo (p : TxPool) (tx : PoolBlobTx) (rows : BlobRows) : BlobRows × Except String Unit :=
  match p.putTx tx rows with
  | .error e => (rows, .error e)
  | .ok rows => (rows, p.storeTx tx.toLegacyTx)

/-- A call that fails leaves the table as it was, and another call succeeds if it would have
succeeded before. -/
def AllOrNothing (p : TxPool) (tx : PoolBlobTx) (rows : BlobRows) : Prop :=
  ∀ e, (p.addTxTo tx rows).2 = .error e → (p.addTxTo tx rows).1 = rows ∧
    ∀ p' : TxPool, (p'.addTxTo tx rows).2 = .ok () →
      (p'.addTxTo tx (p.addTxTo tx rows).1).2 = .ok ()

lemma putTx_ne_self {rows rows' : BlobRows} (h : p.putTx tx rows = .ok rows') : rows' ≠ rows := by
  obtain ⟨_, -, h⟩ := Go.ok_of_bind h
  obtain ⟨_, -, h⟩ := Go.ok_of_bind h
  obtain ⟨_, -, h⟩ := Go.ok_of_bind h
  split_ifs at h
  cases h
  exact fun heq => absurd (congrArg List.length heq) (by simp)

/-- A failed call leaves nothing behind exactly if it does not fail after `Put`. -/
theorem allOrNothing_iff (p : TxPool) (tx : PoolBlobTx) (rows : BlobRows) : p.AllOrNothing tx rows ↔
    ∀ rows', p.putTx tx rows = .ok rows' → p.storeTx tx.toLegacyTx = .ok () := by
  constructor
  · intro h rows' hp
    cases hst : p.storeTx tx.toLegacyTx with
    | ok _ => rfl
    | error e =>
      have had : p.addTxTo tx rows = (rows', .error e) := by rw [addTxTo, hp, ← hst]
      obtain ⟨hsm, -⟩ := h e (by rw [had])
      rw [had] at hsm
      exact absurd hsm (putTx_ne_self hp)
  · intro h e hf
    cases hp : p.putTx tx rows with
    | ok rows' => simp [addTxTo, hp, h rows' hp] at hf
    | error e' =>
      have had : p.addTxTo tx rows = (rows, .error e') := by rw [addTxTo, hp]
      rw [had]
      exact ⟨rfl, fun _ h => h⟩

/-- After an error of the pool's own storage the transaction is rejected as known. -/
theorem not_allOrNothing_storeTx :
    ∃ p : TxPool, ¬p.AllOrNothing (plainBlobTx (plainHash 1)) [] := by
  refine ⟨plainPool (.error ""), fun h => ?_⟩
  have hr := (h "" rfl).2 (plainPool (.ok ())) rfl
  cases hr

end TxPool

end EthdaNode.Blob
