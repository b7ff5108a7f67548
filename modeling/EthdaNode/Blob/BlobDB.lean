import EthdaNode.Sequencer.TxTracker

/-!
# The blob database

The interface `db.BlobDB` and its implementation `SqliteBlobDB`: the blob
transactions by their hash, and the blob gas of the L2 blocks by their number.
-/

namespace EthdaNode.Blob

open Sequencer (Hash)

/-! ## Blob transactions -/

structure Bytes48 where
  bytes : List UInt8
  length_eq : bytes.length = 48
  deriving DecidableEq

structure BlobTxSidecar where
  blobs : List (List UInt8)
  commitments : List Bytes48
  proofs : List Bytes48
  deriving DecidableEq

def BlobTxSidecar.Aligned (sc : BlobTxSidecar) : Prop :=
  sc.commitments.length = sc.blobs.length ∧ sc.proofs.length = sc.blobs.length

structure BlobTransaction where
  blobTxSidecar : Option BlobTxSidecar
  deriving DecidableEq

inductive DbError where
  | notFound
  | other (text : String)
  deriving DecidableEq

structure BlobDB where
  isBlob : Hash → Except DbError Bool
  getBlobTx : Hash → Except DbError (Option BlobTransaction)

/-- `IsBlob` and `GetBlobTx` of `SqliteBlobDB`, over the queries for the key of the
hash. -/
def sqliteBlobDB (has : Hash → Except DbError Bool) (get : Hash → Except DbError (List UInt8))
    (unmarshalBinary : List UInt8 → Except DbError BlobTransaction) : BlobDB where
  isBlob := has
  getBlobTx := fun hash => do
    let existed ← has hash
    if existed then
      let data ← get hash
      let tx ← unmarshalBinary data
      return some tx
    else
      return none

/-- The database knows the blob transactions among the given ones. -/
structure BlobDB.Holds (db : BlobDB) (sidecars : Hash → Option BlobTxSidecar)
    (txs : List Hash) : Prop where
  isBlob_eq : ∀ tx ∈ txs, db.isBlob tx = .ok (sidecars tx).isSome
  getBlobTx_eq : ∀ tx ∈ txs, ∀ sc, sidecars tx = some sc → db.getBlobTx tx = .ok (some ⟨some sc⟩)
  aligned : ∀ tx ∈ txs, ∀ sc, sidecars tx = some sc → sc.Aligned

lemma sqliteBlobDB_holds {has : Hash → Except DbError Bool} {get : Hash →
    Except DbError (List UInt8)} {ub : List UInt8 → Except DbError BlobTransaction} {sidecar :
    Hash → Option BlobTxSidecar} {txs : List Hash} (hh :
    ∀ tx ∈ txs, has tx = .ok (sidecar tx).isSome) (hg : ∀ tx ∈ txs, ∀ sc, sidecar tx = some sc →
    get tx >>= ub = .ok ⟨some sc⟩) (hal : ∀ tx ∈ txs, ∀ sc, sidecar tx = some sc → sc.Aligned) :
    (sqliteBlobDB has get ub).Holds sidecar txs := by
  refine ⟨hh, fun tx htx sc hsc => ?_, hal⟩
  have he : has tx = .ok true := by rw [hh tx htx, hsc, Option.isSome_some]
  have hl := hg tx htx sc hsc
  simp only [sqliteBlobDB, he]
  rcases hd : get tx with e | data
  · rw [hd] at hl
    cases hl
  rw [hd] at hl
  have hu : ub data = .ok ⟨some sc⟩ := hl
  change (ub data >>= fun tx => Except.ok (some tx)) = _
  rw [hu]
  rfl

/-- The table `blobgas`: the blob gas used and the excess blob gas of a block. -/
abbrev BlobGasTable : Type := ℕ → Option (UInt64 × UInt64)

def BlobGasTable.updateBlobGasUsedAndExcessBlobGas (table : BlobGasTable)
    (blockNum : ℕ) (gasUsed excessGas : UInt64) : BlobGasTable :=
  Function.update table blockNum (some (gasUsed, excessGas))

/-- `GetBlobGasUsedAndExcessBlobGas`, for a query that does not fail: a block that
has no row is read as zeros. -/
def BlobGasTable.getBlobGasUsedAndExcessBlobGas (table : BlobGasTable)
    (blockNum : ℕ) : UInt64 × UInt64 :=
  (table blockNum).getD (0, 0)

end EthdaNode.Blob
