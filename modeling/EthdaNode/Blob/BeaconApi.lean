import EthdaNode.Blob.BlobDB

/-!
# The beacon endpoints

`HandleGetBlocks` and `HandleGetBlobSidecars` of the blob server. Both walk the
transactions of a block and look up the sidecars of the blob transactions among
them.
-/

namespace EthdaNode.Blob

open Go Go.Outcome List Sequencer HexText
open Sequencer (Hash)

structure BlockInfo where
  number : ℕ
  hash : Hash
  transactions : List Hash
  deriving DecidableEq

structure StateDB where
  getLastL2BlockNumber : Except DbError UInt64
  getCurrentBlockNumber : Except DbError UInt64
  getL2BlockByNumber : UInt64 → Except DbError BlockInfo

/-! ## The block in the request -/

/-- One digit of `strconv.ParseUint(s, 10, 64)`. -/
def parseDecimalDigit (n : ℕ) (c : Char) : Except HexText.NumError ℕ :=
  if '0' ≤ c ∧ c ≤ '9' then
    if 10 * n + (c.toNat - '0'.toNat) < 2 ^ 64 then .ok (10 * n + (c.toNat - '0'.toNat))
    else .error .range
  else .error .invalidSyntax

def parseDecimal (s : List Char) : Except HexText.NumError UInt64 :=
  match s with
  | [] => .error .invalidSyntax
  | s => (s.foldlM parseDecimalDigit 0).map UInt64.ofNat

/-- `bytesutil.IsHex` of a library: the text matches `^0x[0-9a-fA-F]+$`. -/
def isHex (s : List Char) : Bool :=
  match s with
  | '0' :: 'x' :: digits => !digits.isEmpty && digits.all fun c => (fromHexChar c).isSome
  | _ => false

def parseBlockId (blockId : String) : Outcome String UInt64 :=
  if isHex blockId.toList then
    ofExcept (fun _ => "could not decode block ID into hex: " ++ blockId) (parseUint blockId.toList)
  else
    ofExcept (fun _ => "could not decode block ID: " ++ blockId) (parseDecimal blockId.toList)

variable (st : StateDB)

def blockHeight (blockId : String) : Outcome String UInt64 :=
  if blockId = "head" then
    ofExcept (fun _ => "could not decode block ID: " ++ blockId) st.getLastL2BlockNumber
  else if blockId = "finalized" then
    ofExcept (fun _ => "could not decode block ID: " ++ blockId) st.getCurrentBlockNumber
  else parseBlockId blockId

def bytes2Hex (bs : List UInt8) : List Char := encodeToString bs

def hexutilEncode (bs : List UInt8) : List Char := '0' :: 'x' :: encodeToString bs

structure BlocksResponse where
  slot : List Char
  blockHash : List Char
  blobKzgCommitments : List (List Char)
  deriving DecidableEq

def checkFailed (blockId : String) (height : UInt64) : String :=
  "failed to check blob tx from leveldb: " ++ blockId ++ "=>" ++ toString height.toNat

variable (db : BlobDB)

/-- One iteration of the loop of `HandleGetBlocks`, which dereferences a missing transaction or
sidecar all the same. -/
def getBlocksBody (blockId : String) (height : UInt64) (blobH : List Char) (tx : Hash) :
    Outcome String (List Char) := do
  let existed ← ofExcept (fun _ => checkFailed blockId height) (db.isBlob tx)
  if existed then
    match db.getBlobTx tx with
    | .error .notFound => panic
    | .error (.other _) =>
      err ("failed to load blob tx from leveldb%!(EXTRA string=" ++ blockId ++
        ", uint64=" ++ toString height.toNat ++ ")")
    | .ok newTx =>
      match newTx.bind BlobTransaction.blobTxSidecar with
      | none => panic
      | some sidecar => do
          let commitment ← index sidecar.commitments 0
          ok (bytes2Hex commitment.bytes)
  else ok blobH

def handleGetBlocks (blockId : String) : Outcome String BlocksResponse := do
  let height ← blockHeight st blockId
  let block ← ofExcept (fun _ => "could not retrieve block for height: " ++ blockId ++
    "," ++ toString height.toNat) (st.getL2BlockByNumber height)
  let blobH ← block.transactions.foldlM (getBlocksBody db blockId height) []
  ok { slot := Nat.toDigits 10 block.number
       blockHash := hexutilEncode block.hash.bytes
       blobKzgCommitments := if blobH = [] then [] else [blobH] }

structure BlobSidecar where
  index : UInt64
  blob : List UInt8
  kzgCommitment : Bytes48
  kzgProof : Bytes48
  deriving DecidableEq

structure Sidecar where
  index : List Char
  blob : List Char
  kzgCommitment : List Char
  kzgProof : List Char
  deriving DecidableEq

def buildSidecardsResponse (sidecars : List BlobSidecar) : List Sidecar :=
  sidecars.map fun sc =>
    { index := Nat.toDigits 10 sc.index.toNat
      blob := hexutilEncode sc.blob
      kzgCommitment := hexutilEncode sc.kzgCommitment.bytes
      kzgProof := hexutilEncode sc.kzgProof.bytes }

def appendSidecars (out : List BlobSidecar) (sidecar : BlobTxSidecar) :
    Outcome String (List BlobSidecar) :=
  sidecar.blobs.zipIdx.foldlM (fun out blobi => do
    let commitment ← index sidecar.commitments blobi.2
    let proof ← index sidecar.proofs blobi.2
    ok (out ++ [⟨UInt64.ofNat blobi.2, blobi.1, commitment, proof⟩])) out

def getBlobSidecarsBody (blockId : String) (height : UInt64) (out : List BlobSidecar) (tx : Hash) :
    Outcome String (List BlobSidecar) := do
  let existed ← ofExcept (fun _ => checkFailed blockId height) (db.isBlob tx)
  if existed then
    match db.getBlobTx tx with
    | .error _ =>
      err ("failed to load blob tx from leveldb: " ++ blockId ++ "=>" ++ toString height.toNat)
    | .ok newTx =>
      match newTx.bind BlobTransaction.blobTxSidecar with
      | none => panic
      | some sidecar => appendSidecars out sidecar
  else ok out

def handleGetBlobSidecars (blockId : String) : Outcome String (List Sidecar) := do
  let height ← parseBlockId blockId
  let block ← ofExcept (fun _ => "could not retrieve blobs for height: " ++ blockId)
    (st.getL2BlockByNumber height)
  let out ← block.transactions.foldlM (getBlobSidecarsBody db blockId height) []
  ok (buildSidecardsResponse out)

section
variable {db : BlobDB} {sidecars : Hash → Option BlobTxSidecar} {blockId bid : String} {height :
    UInt64}

def sidecarAt (sc : BlobTxSidecar) (blobi : List UInt8 × ℕ) : Option BlobSidecar :=
  sc.commitments[blobi.2]?.bind fun commitment =>
    sc.proofs[blobi.2]?.map fun proof =>
      ⟨UInt64.ofNat blobi.2, blobi.1, commitment, proof⟩

def sidecarsOf (sc : BlobTxSidecar) : List BlobSidecar := sc.blobs.zipIdx.filterMap (sidecarAt sc)

variable {sc : BlobTxSidecar}

lemma sidecarAt_isSome (ha : sc.Aligned) {blobi : List UInt8 × ℕ} (hm : blobi ∈ sc.blobs.zipIdx) :
    ∃ commitment proof, sc.commitments[blobi.2]? = some commitment ∧
    sc.proofs[blobi.2]? = some proof := by
  have hl : blobi.2 < sc.blobs.length :=
    (List.getElem?_eq_some_iff.mp (mem_zipIdx_iff_getElem?.mp hm)).1
  have hc : blobi.2 < sc.commitments.length := by rwa [ha.1]
  have hp : blobi.2 < sc.proofs.length := by rwa [ha.2]
  exact ⟨_, _, getElem?_eq_getElem hc, getElem?_eq_getElem hp⟩

lemma appendSidecars_eq (ha : sc.Aligned) (out : List BlobSidecar) :
    appendSidecars out sc = ok (out ++ sidecarsOf sc) := by
  rw [sidecarsOf, filterMap_eq_flatMap_toList]
  refine foldlM_append _ _ fun acc blobi hm => ?_
  obtain ⟨commitment, proof, hc, hp⟩ := sidecarAt_isSome ha hm
  rw [index_ok_iff.mpr hc, ok_bind, index_ok_iff.mpr hp, ok_bind, sidecarAt, hc, hp]
  rfl

lemma length_sidecarsOf (ha : sc.Aligned) : (sidecarsOf sc).length = sc.blobs.length := by
  have hl : (sidecarsOf sc).length = sc.blobs.zipIdx.length := by
    refine filterMap_length_eq_length.mpr fun blobi hm => ?_
    obtain ⟨commitment, proof, hc, hp⟩ := sidecarAt_isSome ha hm
    rw [sidecarAt, hc, hp]
    rfl
  rw [hl, length_zipIdx]

lemma foldlM_getBlobSidecarsBody {txs : List Hash} (hd : db.Holds sidecars txs) : txs.foldlM
    (getBlobSidecarsBody db bid height) [] = ok ((txs.filterMap sidecars).flatMap sidecarsOf) := by
  have hst : ∀ out, ∀ tx ∈ txs, getBlobSidecarsBody db bid height out tx =
      ok (out ++ (sidecars tx).toList.flatMap sidecarsOf) := by
    intro out tx ht
    rw [getBlobSidecarsBody, hd.isBlob_eq tx ht]
    cases hs : sidecars tx with
    | none => simp
    | some sc =>
      simp [hd.getBlobTx_eq tx ht sc hs, appendSidecars_eq (hd.aligned tx ht sc hs)]
  rw [foldlM_append txs [] hst, nil_append, filterMap_eq_flatMap_toList, flatMap_assoc]

/-- The text that the loop of `HandleGetBlocks` is left with. -/
def lastCommitment (blobH : List Char) (carried : List BlobTxSidecar) : List Char :=
  carried.foldl (fun blobH sc => sc.commitments.head?.elim blobH fun c => bytes2Hex c.bytes) blobH

/-- The block endpoint keeps the first commitment of the last blob transaction, and panics if it has
none. -/
lemma foldlM_getBlocksBody {txs : List Hash} (hd : db.Holds sidecars txs) (bh r : List Char) :
    txs.foldlM (getBlocksBody db bid height) bh = ok r ↔ (∀ sc ∈ txs.filterMap sidecars,
    sc.commitments ≠ []) ∧ r = lastCommitment bh (txs.filterMap sidecars) := by
  induction txs generalizing bh with
  | nil => simp [lastCommitment, eq_comm]
  | cons tx txs ih =>
    have hr : db.Holds sidecars txs := ⟨fun t ht => hd.isBlob_eq t (mem_cons_of_mem _ ht), fun t ht
      => hd.getBlobTx_eq t (mem_cons_of_mem _ ht), fun t ht => hd.aligned t (mem_cons_of_mem _ ht)⟩
    rw [foldlM_cons, getBlocksBody, hd.isBlob_eq tx mem_cons_self]
    rcases hs : sidecars tx with _ | sc
    · rw [filterMap_cons_none hs]
      simpa using ih hr bh
    rw [filterMap_cons_some hs, forall_mem_cons]
    have hl := hd.getBlobTx_eq tx mem_cons_self sc hs
    cases hc : sc.commitments with
    | nil => simp [hl, hc, index]
    | cons c cs =>
      have htl := ih hr (bytes2Hex c.bytes)
      simpa [hl, hc, index, lastCommitment] using htl
end

/-! ## Agreement of the endpoints -/

lemma blockHeight_eq {bid : String} {height : UInt64} (h : parseBlockId bid = ok height) :
    blockHeight st bid = ok height := by
  have hh : bid ≠ "head" := by
    rintro rfl
    have hf : parseBlockId "head" = err "could not decode block ID: head" := by decide
    rw [hf] at h
    cases h
  have hn : bid ≠ "finalized" := by
    rintro rfl
    have hf : parseBlockId "finalized" = err "could not decode block ID: finalized" := by decide
    rw [hf] at h
    cases h
  rw [blockHeight, if_neg hh, if_neg hn, h]

lemma bytes2Hex_ne_nil (c : Bytes48) : bytes2Hex c.bytes ≠ [] := by
  intro h
  have hl := congrArg length h
  rw [bytes2Hex, encodeToString, length_map, length_nibbles, c.length_eq] at hl
  cases hl

lemma lastCommitment_nil_iff {carried : List BlobTxSidecar} (h : ∀ sc ∈ carried,
    sc.commitments ≠ []) : lastCommitment [] carried = [] ↔ carried = [] := by
  rcases eq_nil_or_concat carried with rfl | ⟨init, last, rfl⟩
  · exact iff_of_true rfl rfl
  · obtain ⟨c, cs, hc⟩ := exists_cons_of_ne_nil (h last (by simp))
    simp [lastCommitment, hc, bytes2Hex_ne_nil]

section
variable {st : StateDB} {db : BlobDB} {sidecars : Hash → Option BlobTxSidecar}
  {blockId bid : String} {height : UInt64} {block : BlockInfo}

lemma handleGetBlobSidecars_eq (hi : parseBlockId bid = ok height)
    (hb : st.getL2BlockByNumber height = .ok block) (hd : db.Holds sidecars block.transactions) :
    handleGetBlobSidecars st db bid = ok
    (buildSidecardsResponse ((block.transactions.filterMap sidecars).flatMap sidecarsOf)) := by
  rw [handleGetBlobSidecars, hi, ok_bind, hb, ofExcept_ok, ok_bind,
    foldlM_getBlobSidecarsBody hd, ok_bind]

lemma handleGetBlocks_ok_iff (hi : parseBlockId bid = ok height)
    (hb : st.getL2BlockByNumber height = .ok block)
    (hd : db.Holds sidecars block.transactions) {res : BlocksResponse} :
    handleGetBlocks st db bid = ok res ↔
    (∀ sc ∈ block.transactions.filterMap sidecars, sc.commitments ≠ []) ∧
    res = {
      slot := Nat.toDigits 10 block.number
      blockHash := hexutilEncode block.hash.bytes
      blobKzgCommitments := if block.transactions.filterMap sidecars = [] then []
        else [lastCommitment [] (block.transactions.filterMap sidecars)] } := by
  rw [handleGetBlocks, blockHeight_eq st hi, ok_bind, hb, ofExcept_ok, ok_bind, bind_ok_iff]
  simp only [foldlM_getBlocksBody hd]
  constructor
  · rintro ⟨bh, ⟨ha, rfl⟩, hr⟩
    simp only [lastCommitment_nil_iff ha] at hr
    exact ⟨ha, (Outcome.ok.inj hr).symm⟩
  rintro ⟨ha, rfl⟩
  refine ⟨_, ⟨ha, rfl⟩, ?_⟩
  simp only [lastCommitment_nil_iff ha]

/-- The sidecars are numbered from 0, and the commitments are theirs; the block endpoint writes them
without the leading `0x`. -/
def EndpointsAgree (data : List Sidecar) (blobKzgCommitments : List (List Char)) : Prop :=
  data.map Sidecar.index = (range data.length).map (Nat.toDigits 10) ∧
    data.map Sidecar.kzgCommitment = blobKzgCommitments.map (['0', 'x'] ++ ·)

/-- There is no blob transaction, or a single one with a single blob. -/
def AtMostOneBlob (carried : List BlobTxSidecar) : Prop :=
  carried.map (fun sc => sc.blobs.length) = [] ∨ carried.map (fun sc => sc.blobs.length) = [1]

variable {carried : List BlobTxSidecar}

lemma length_flatMap_sidecarsOf (ha : ∀ sc ∈ carried, sc.Aligned) :
    (carried.flatMap sidecarsOf).length = (carried.map fun sc => sc.blobs.length).sum := by
  rw [length_flatMap]
  exact congrArg sum (map_congr_left fun sc hs =>
    length_sidecarsOf (ha sc hs))

lemma atMostOneBlob_of_length_le (hn : ∀ sc ∈ carried, sc.blobs.length ≠ 0)
    (hs : (carried.map fun sc => sc.blobs.length).sum = if carried = [] then 0 else 1) :
    AtMostOneBlob carried := by
  rcases carried with _ | ⟨sc, rest⟩
  · exact .inl rfl
  right
  rw [if_neg (cons_ne_nil _ _), map_cons, sum_cons] at hs
  have hp := Nat.pos_of_ne_zero (hn sc mem_cons_self)
  rcases rest with _ | ⟨sc', rest⟩
  · rw [map_nil, sum_nil, Nat.add_zero] at hs
    rw [map_singleton, hs]
  have hpos' := Nat.pos_of_ne_zero (hn sc' (mem_cons_of_mem _ mem_cons_self))
  rw [map_cons, sum_cons] at hs
  omega

lemma endpointsAgree_singleton {sc : BlobTxSidecar} (ha : sc.Aligned) (ho : sc.blobs.length = 1) :
    sc.commitments ≠ [] ∧
    EndpointsAgree (buildSidecardsResponse (sidecarsOf sc)) [lastCommitment [] [sc]] := by
  obtain ⟨blb, cmm, pro⟩ := sc
  obtain ⟨hc, hp⟩ := ha
  obtain ⟨blob, rfl⟩ := length_eq_one_iff.mp ho
  obtain ⟨c, rfl⟩ := length_eq_one_iff.mp hc
  obtain ⟨prf, rfl⟩ := length_eq_one_iff.mp hp
  exact ⟨cons_ne_nil _ _, rfl, rfl⟩

def plainBytes48 (id : UInt8) : Bytes48 := ⟨replicate 47 0 ++ [id], by simp⟩

def oneBlob (id : UInt8) : BlobTxSidecar := ⟨[[id]], [plainBytes48 id], [plainBytes48 id]⟩

/-- A database in which the transactions 1 and 2 carry one blob each. -/
def twoBlobsDB : BlobDB :=
  sqliteBlobDB (fun hash => .ok (hash == plainHash 1 || hash == plainHash 2))
    (fun hash => .ok hash.bytes)
    (fun data => .ok ⟨some (oneBlob (data.getLastD 0))⟩)

def twoBlobs (hash : Hash) : Option BlobTxSidecar :=
  if hash = plainHash 1 then some (oneBlob 1)
  else if hash = plainHash 2 then some (oneBlob 2)
  else none

def stateOf (txs : List Hash) : StateDB where
  getLastL2BlockNumber := .ok 7
  getCurrentBlockNumber := .ok 7
  getL2BlockByNumber := fun height =>
    if height = 7 then .ok ⟨7, plainHash 7, txs⟩ else .error .notFound

lemma twoBlobsDB_holds (txs : List Hash) : twoBlobsDB.Holds twoBlobs txs := by
  refine sqliteBlobDB_holds (fun tx _ => ?_) (fun tx _ sc hs => ?_) (fun tx _ sc hs => ?_)
  · unfold twoBlobs
    split_ifs <;> simp [*]
  · unfold twoBlobs at hs
    split_ifs at hs with h₁ h₂
    · rw [h₁, ← Option.some.inj hs]
      rfl
    · rw [h₂, ← Option.some.inj hs]
      rfl
  unfold twoBlobs at hs
  split_ifs at hs with h₁ h₂
  · rw [← Option.some.inj hs]
    exact ⟨rfl, rfl⟩
  · rw [← Option.some.inj hs]
    exact ⟨rfl, rfl⟩

end

end EthdaNode.Blob
