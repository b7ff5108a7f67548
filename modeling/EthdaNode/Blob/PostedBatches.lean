import EthdaNode.Blob.ZkblobSender
import EthdaNode.State.TxStreamCodec

/-!
# The batches that are posted

`HandleSequenceToZkBlob` reads the data of every batch with `DecodeBatchV2`, but the data of a
forced batch and that of a batch before Etrog have formats of their own.
-/

namespace EthdaNode.Blob.ZkblobSender

open State List
open Go Go.Outcome

inductive BatchKind where
  | regular | forced | beforeEtrog (forkID : UInt64)

structure Batch where
  number : ℕ
  kind : BatchKind
  batchL2Data : GoBytes

def Batch.read (b : Batch) : ℕ × GoBytes := (b.number, b.batchL2Data)

variable {η : Type} (geth : GoEthereum) (hash : LegacyTx → η)

def txsOf (batchRaw : BatchRawV2) : List LegacyTx :=
  batchRaw.blocks.flatMap fun block => block.transactions.map L2TxRaw.tx

/-- The transactions of a batch, read in the format of its kind. -/
def Batch.txs (b : Batch) : Outcome GoError (List LegacyTx) :=
  match b.kind with
  | .regular => do
    let batchRaw ← decodeBatchV2 geth b.batchL2Data
    ok (txsOf batchRaw)
  | .forced => do
    let raw ← decodeForcedBatchV2 geth b.batchL2Data
    ok (raw.transactions.map L2TxRaw.tx)
  | .beforeEtrog forkID => do
    let decoded ← decodeTxs geth b.batchL2Data forkID
    ok decoded.txs

def txHashes (batchL2Data : GoBytes) : Outcome Empty (List η) :=
  match decodeBatchV2 geth batchL2Data with
  | .ok batchRaw => ok ((txsOf batchRaw).map hash)
  | .err _ => ok []
  | .panic => panic
  | .hang => hang

def post (posted : List (ℕ × List η)) (batch : ℕ × GoBytes) :
    Outcome Empty (List (ℕ × List η)) := do
  let hashes ← txHashes geth hash batch.2
  ok (if hashes.isEmpty then posted else posted ++ [(batch.1, hashes)])

def posted (batches : List (ℕ × GoBytes)) : Outcome Empty (List (ℕ × List η)) :=
  batches.foldlM (post geth hash) []

/-- Every batch with transactions is posted with their hashes, and a sequence that counts as sent
because it has nothing to post has none. -/
structure PostsAll (batches : List Batch) : Prop where
  all : ∀ ps, posted geth hash (batches.map Batch.read) = ok ps →
    ∀ b ∈ batches, ∀ txs, b.txs geth = ok txs → txs ≠ [] → (b.number, txs.map hash) ∈ ps
  nothing : batchNums geth (batches.map Batch.read) = ok [] →
    ∀ b ∈ batches, ∀ txs, b.txs geth = ok txs → txs = []

variable {geth hash} {reads : List (ℕ × GoBytes)} {acc ps : List (ℕ × List η)}

lemma batchHasTxs_eq (hash : LegacyTx → η) (data : GoBytes) :
    batchHasTxs geth data = txHashes geth hash data >>= fun ha => ok (!ha.isEmpty) := by
  rw [batchHasTxs, txHashes]
  cases decodeBatchV2 geth data with
  | ok batchRaw =>
    simp only [ok_bind, ok.injEq, txsOf]
    induction batchRaw.blocks with
    | nil => rfl
    | cons block rest ih => cases ht : block.transactions <;> simp_all
  | _ => rfl

/-- The numbers that `sendZkblob` goes by are those of the posted batches. -/
lemma batchNums_eq_posted (hash : LegacyTx → η) :
    batchNums geth reads = posted geth hash reads >>= fun ps => ok (ps.map Prod.fst) := by
  suffices h : ∀ acc : List (ℕ × List η), reads.foldlM (fun nums batch => do
      let ha ← batchHasTxs geth batch.2
      ok (if ha then nums ++ [batch.1] else nums)) (acc.map Prod.fst) =
      reads.foldlM (post geth hash) acc >>= fun ps => ok (ps.map Prod.fst) from h []
  induction reads with
  | nil => exact fun _ => rfl
  | cons b bs ih =>
    intro acc
    rw [foldlM_cons, foldlM_cons, batchHasTxs_eq hash, post]
    cases txHashes geth hash b.2 with
    | ok hh =>
      simp only [ok_bind]
      rw [← ih]
      cases hh <;> simp
    | _ => rfl

/-- A batch is posted exactly with the hashes that are read in it. -/
lemma mem_of_post (h : reads.foldlM (post geth hash) acc = ok ps) {p : ℕ × List η} :
    p ∈ ps ↔ p ∈ acc ∨ p.2 ≠ [] ∧ ∃ b ∈ reads, b.1 = p.1 ∧ txHashes geth hash b.2 = ok p.2 := by
  induction reads generalizing acc with
  | nil =>
    cases h
    simp
  | cons b bs ih =>
    rw [foldlM_cons] at h
    obtain ⟨next, hn, h⟩ := ok_of_bind h
    obtain ⟨hashes, hh, hn⟩ := ok_of_bind hn
    cases hn
    rw [ih h]
    obtain ⟨number, ps⟩ := p
    cases hashes <;> grind

/-- The loop returns unless the data of a batch makes `DecodeBatchV2` panic. -/
lemma posted_ok_iff : (∃ ps, reads.foldlM (post geth hash) acc = ok ps) ↔
    ∀ b ∈ reads, (decodeBatchV2 geth b.2).Returns := by
  induction reads generalizing acc with
  | nil => simp
  | cons b bs ih =>
    rw [foldlM_cons, forall_mem_cons, post, txHashes]
    cases decodeBatchV2 geth b.2 <;> simp [ih, Returns]

lemma txHashes_eq_ok {data : GoBytes} {hashes : List η} (hne : hashes ≠ []) :
    txHashes geth hash data = ok hashes ↔
      ∃ raw, decodeBatchV2 geth data = ok raw ∧ (txsOf raw).map hash = hashes := by
  rw [txHashes]
  cases decodeBatchV2 geth data <;> simp [hne.symm]

lemma zeroTx_length : TxItem.zero.bytes.length < 2 ^ 63 := by decide +kernel

def zeroTxData : GoBytes := ⟨TxItem.zero.bytes, zeroTx_length⟩

def zeroTxBlock : GoBytes :=
  ⟨changeL2Block :: replicate 8 0 ++ TxItem.zero.bytes, by decide +kernel⟩

end EthdaNode.Blob.ZkblobSender
