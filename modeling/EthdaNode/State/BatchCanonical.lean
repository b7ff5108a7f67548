import EthdaNode.State.BatchV2

/-!
# The batch data that the codec reproduces

`DecodeBatchV2` accepts more than `EncodeBatchV2` writes. A transaction is
canonical if it has the form the encoder writes; decoding and encoding again
gives the data back exactly if all its transactions are canonical.
-/

namespace EthdaNode.State

open Go Go.Outcome BigEndian List BlockItem UInt64 RlpValue

/-! ## Canonical transactions -/

structure CanonicalFields (nonce gasPrice gas toAddr value : List UInt8) :
    Prop where
  nonce : Minimal nonce ∧ nonce.length ≤ 8
  gasPrice : Minimal gasPrice
  gas : Minimal gas ∧ gas.length ≤ 8
  toAddr : toAddr.length = 0 ∨ toAddr.length = 20
  value : Minimal value

/-- The RLP list of a transaction as it is encoded: six fields, or nine of which the seventh is the
chain id and the last two are empty. -/
def CanonicalList : List (List UInt8) → Prop
  | [nonce, gasPrice, gas, toAddr, value, _] => CanonicalFields nonce gasPrice gas toAddr value
  | [nonce, gasPrice, gas, toAddr, value, _, chainID, zero₁, zero₂] =>
    CanonicalFields nonce gasPrice gas toAddr value ∧ Minimal chainID ∧ zero₁ = [] ∧ zero₂ = []
  | _ => False

/-- A transaction as the encoder writes it. -/
def TxItem.Canonical (it : TxItem) : Prop := CanonicalList it.fields ∧ (it.v = 27 ∨ it.v = 28)

lemma toBytes_uint64_iff (bs : List UInt8) :
    toBytes (ofNat (ofBytes bs)).toNat = bs ↔ Minimal bs ∧ bs.length ≤ 8 := by
  constructor
  · intro h
    rw [← h]
    refine ⟨minimal_toBytes _, (length_toBytes_le_iff _ 8).mpr ?_⟩
    have := (ofNat (ofBytes bs)).toNat_lt
    omega
  rintro ⟨hm, hl⟩
  have ht : ofBytes bs < 2 ^ 64 := by
    calc ofBytes bs < 256 ^ bs.length := ofBytes_lt bs
      _ ≤ 256 ^ 8 := Nat.pow_le_pow_right (by norm_num) hl
      _ = 2 ^ 64 := by norm_num
  rw [toNat_ofNat', Nat.mod_eq_of_lt ht]
  exact toBytes_ofBytes hm

variable (geth : GoEthereum)

lemma addr_content_iff (bs : List UInt8) :
    (address (if bs.length ≠ 0 then some (geth.bytesToAddress bs)
    else none)).content = bs ↔ bs.length = 0 ∨ bs.length = 20 := by
  by_cases hz : bs.length = 0
  · rw [if_neg (by simpa using hz)]
    simp only [content, hz, true_or, iff_true]
    exact (length_eq_zero_iff.mp hz).symm
  rw [if_pos hz]
  simp only [content, hz, false_or]
  constructor
  · intro h
    rw [← h]
    exact Address.length_eq _
  · intro h
    rw [geth.bytesToAddress_bytes ⟨bs, h⟩]

lemma vByte_cases (tx : LegacyTx) : vByte tx = 27 ∨ vByte tx = 28 := by
  rw [vByte]
  split
  · exact .inl rfl
  · exact .inr rfl

lemma canonicalFields_iff (nonce gasPrice gas toAddr value : List UInt8) :
    (toBytes (ofNat (ofBytes nonce)).toNat = nonce ∧ toBytes (ofBytes gasPrice) = gasPrice ∧
    toBytes (ofNat (ofBytes gas)).toNat = gas ∧
    (address (if toAddr.length ≠ 0 then
    some (geth.bytesToAddress toAddr) else none)).content = toAddr ∧
    toBytes (ofBytes value) = value) ↔
    CanonicalFields nonce gasPrice gas toAddr value := by
  rw [toBytes_uint64_iff, toBytes_uint64_iff, addr_content_iff,
    toBytes_ofBytes_iff, toBytes_ofBytes_iff]
  constructor
  · rintro ⟨h₁, h₂, h₃, h₄, h₅⟩
    exact ⟨h₁, h₂, h₃, h₄, h₅⟩
  · rintro ⟨h₁, h₂, h₃, h₄, h₅⟩
    exact ⟨h₁, h₂, h₃, h₄, h₅⟩

variable {v : UInt8}

lemma toNat_v (hv : v = 27 ∨ v = 28) : v.toNat = 27 ∨ v.toNat = 28 := by
  rcases hv with rfl | rfl
  · exact .inl rfl
  · exact .inr rfl

variable {fs : List (List UInt8)} {tx : LegacyTx} {s r : List UInt8}

/-- Writing the transaction that was read from a list gives the list back
exactly if the list is canonical. -/
lemma fieldsToEncode_eq_iff (hr : rlpFieldsToLegacyTx geth fs [v] r s = .ok tx)
    (hv : v = 27 ∨ v = 28) : (rlpFieldsToEncode geth tx).map content = fs ↔ CanonicalList fs := by
  have hn := toNat_v hv
  rcases fs with _ | ⟨nonce, _ | ⟨gasPrice, _ | ⟨gas, _ | ⟨toAddr, _ | ⟨value, _ | ⟨data,
    _ | ⟨chainID, rest⟩⟩⟩⟩⟩⟩⟩
  iterate 6 · simp [rlpFieldsToLegacyTx] at hr
  · simp only [rlpFieldsToLegacyTx, ok.injEq] at hr
    have hp : isPreEIP155Tx geth tx = true := by
      apply preEIP155_of_unprotected
      rw [← hr]
      simpa [ofBytes] using hn
    rw [CanonicalList, ← canonicalFields_iff geth, rlpFieldsToEncode, hp, ← hr]
    simp
  simp only [rlpFieldsToLegacyTx, ok.injEq] at hr
  have ht : tx.v = 2 * ofBytes chainID + 35 ∨ tx.v = 2 * ofBytes chainID + 36 := by
    rw [← hr]
    simp only [ofBytes_singleton, double, etherPre155V, ether155V]
    omega
  have hp := preEIP155_of_protected geth ht
  have hc := chainId_of_protected geth ht
  rw [rlpFieldsToEncode, hp, hc, ← hr]
  rcases rest with _ | ⟨zero₁, _ | ⟨zero₂, _ | ⟨_, _⟩⟩⟩
  · simp [CanonicalList]
  · simp [CanonicalList]
  · rw [CanonicalList, ← canonicalFields_iff geth, ← toBytes_ofBytes_iff chainID]
    simp [and_assoc, eq_comm]
  · simp [CanonicalList]

lemma legacyTx_sig {v : List UInt8} (hr : rlpFieldsToLegacyTx geth fs v r s = .ok tx) :
    tx.r = ofBytes r ∧ tx.s = ofBytes s := by
  match fs with
  | _ :: _ :: _ :: _ :: _ :: _ :: _ =>
    simp only [rlpFieldsToLegacyTx, ok.injEq] at hr
    rw [← hr]
    exact ⟨rfl, rfl⟩
  | [] | [_] | [_, _] | [_, _, _] | [_, _, _, _] | [_, _, _, _, _] =>
    simp [rlpFieldsToLegacyTx] at hr

lemma vByte_eq (hr : rlpFieldsToLegacyTx geth fs [v] r s = .ok tx) (hv : v = 27 ∨ v = 28) :
    vByte tx = v := by
  have hn := toNat_v hv
  have ho : tx.v % 2 = v.toNat % 2 := by
    match fs with
    | [_, _, _, _, _, _] =>
      simp only [rlpFieldsToLegacyTx, ok.injEq] at hr
      rw [← hr, ofBytes_singleton]
    | _ :: _ :: _ :: _ :: _ :: _ :: _ :: _ =>
      simp only [rlpFieldsToLegacyTx, ok.injEq] at hr
      rw [← hr, ofBytes_singleton]
      simp only [double, etherPre155V, ether155V]
      omega
    | [] | [_] | [_, _] | [_, _, _] | [_, _, _, _] | [_, _, _, _, _] =>
      simp [rlpFieldsToLegacyTx] at hr
  rcases hv with rfl | rfl
  · rw [vByte, if_pos (by rw [ho]; rfl)]
  · rw [vByte, if_neg (by rw [ho]; decide)]

lemma fixedBytes_mod {bs : List UInt8} (hl : bs.length = 32) :
    HexText.fixedBytes 32 (ofBytes bs % 2 ^ 256) = bs := by
  have ht := ofBytes_lt bs
  rw [hl] at ht
  have hf := HexText.fixedBytes_ofBytes bs
  rwa [Nat.mod_eq_of_lt (by omega), ← hl]

variable (it : TxItem)

lemma TxItem.ofRaw_raw_iff : TxItem.ofRaw geth (it.raw geth) = it ↔ it.Canonical := by
  have hd := it.legacyTx_eq geth
  constructor
  · intro h
    have hv : it.v = 27 ∨ it.v = 28 := by
      have hb := vByte_cases (it.tx geth)
      rwa [show vByte (it.tx geth) = it.v from congrArg TxItem.v h] at hb
    exact ⟨(fieldsToEncode_eq_iff geth hd hv).mp (congrArg TxItem.fields h), hv⟩
  rintro ⟨hf, hv⟩
  obtain ⟨hr, hs⟩ := legacyTx_sig geth hd
  apply TxItem.ext
  · exact (fieldsToEncode_eq_iff geth hd hv).mpr hf
  · show HexText.fixedBytes 32 ((it.tx geth).r % 2 ^ 256) = it.r
    rw [hr]
    exact fixedBytes_mod it.r_length
  · show HexText.fixedBytes 32 ((it.tx geth).s % 2 ^ 256) = it.s
    rw [hs]
    exact fixedBytes_mod it.s_length
  · exact vByte_eq geth hd hv
  · rfl

lemma TxItem.encodable_raw : (it.raw geth).Encodable := by
  obtain ⟨hr, hs⟩ := legacyTx_sig geth (it.legacyTx_eq geth)
  have hl := ofBytes_lt it.r
  have hsl := ofBytes_lt it.s
  rw [it.r_length, ← hr] at hl
  rw [it.s_length, ← hs] at hsl
  constructor
  · calc (it.tx geth).r < 256 ^ 32 := hl
      _ = 2 ^ 256 := by norm_num
  · calc (it.tx geth).s < 256 ^ 32 := hsl
      _ = 2 ^ 256 := by norm_num

variable {rest' : List UInt8} {rest : List UInt8}

lemma TxItem.bytes_append_inj {it it' : TxItem} (hl : (it.bytes ++ rest).length < 2 ^ 63)
    (h : it.bytes ++ rest = it'.bytes ++ rest') : it = it' ∧ rest = rest' := by
  have hlen' := hl
  rw [h] at hlen'
  rw [length_append, TxItem.length_bytes] at hl hlen'
  simp only [TxItem.bytes, TxItem.body, append_assoc] at h
  obtain ⟨hf, h⟩ := Rlp.encodeList_append_inj (by omega) (by omega) h
  obtain ⟨hr, h⟩ := append_inj h (by rw [it.r_length, it'.r_length])
  obtain ⟨hs, h⟩ := append_inj h (by rw [it.s_length, it'.s_length])
  simp only [cons_append, nil_append, cons.injEq] at h
  exact ⟨TxItem.ext hf hr hs h.1 h.2.1, h.2.2⟩

lemma serialize32_inj {a b : UInt32} (h : serializeUint32 a = serializeUint32 b) : a = b := by
  rw [← UInt32.toNat_inj, ← ofBytes_serialize32, h, ofBytes_serialize32]

lemma BlockItem.headerBytes_append_inj {dt idx dt' idx' : UInt32} (h : headerBytes dt idx ++ rest =
    headerBytes dt' idx' ++ rest') : dt = dt' ∧ idx = idx' ∧ rest = rest' := by
  simp only [headerBytes, cons_append, append_assoc, cons.injEq, true_and] at h
  obtain ⟨hd, h⟩ := append_inj h rfl
  obtain ⟨hi, h⟩ := append_inj h rfl
  exact ⟨serialize32_inj hd, serialize32_inj hi, h⟩

lemma TxItem.bytes_append_ne (dt idx : UInt32) (hl : (it.bytes ++ rest).length < 2 ^ 63) :
    it.bytes ++ rest ≠ headerBytes dt idx ++ rest' := by
  intro h
  rw [length_append] at hl
  obtain ⟨b, tail, he, hn⟩ := it.bytes_eq_cons (by omega)
  rw [he, headerBytes, cons_append, cons_append, cons.injEq] at h
  exact hn h.1

lemma BatchItem.bytes_append_inj (it it' : BatchItem) (rest rest' : List UInt8)
    (hl : (it.bytes ++ rest).length < 2 ^ 63)
    (h : it.bytes ++ rest = it'.bytes ++ rest') : it = it' ∧ rest = rest' := by
  cases it with
  | header dt idx =>
    cases it' with
    | header dt' idx' =>
      obtain ⟨rfl, rfl, hr⟩ := headerBytes_append_inj h
      exact ⟨rfl, hr⟩
    | tx it' =>
      rw [h] at hl
      exact absurd h.symm (it'.bytes_append_ne dt idx hl)
  | tx it =>
    cases it' with
    | header dt' idx' => exact absurd h (it.bytes_append_ne dt' idx' hl)
    | tx it' =>
      obtain ⟨rfl, hr⟩ := TxItem.bytes_append_inj hl h
      exact ⟨rfl, hr⟩

def splitBlocks : List BatchItem → List TxItem × List BlockItem
  | [] => ([], [])
  | .header dt idx :: its => ([], ⟨dt, idx, (splitBlocks its).1⟩ :: (splitBlocks its).2)
  | .tx it :: its => (it :: (splitBlocks its).1, (splitBlocks its).2)

lemma splitBlocks_txs (txs : List TxItem) (its : List BatchItem) :
    splitBlocks (txs.map .tx ++ its) = (txs ++ (splitBlocks its).1, (splitBlocks its).2) := by
  induction txs with
  | nil => rfl
  | cons it txs ih => rw [map_cons, cons_append, splitBlocks, ih]; rfl

lemma splitBlocks_items (blocks : List BlockItem) : splitBlocks (blocks.flatMap items) = ([],
    blocks) := by
  induction blocks with
  | nil => rfl
  | cons blk blocks ih =>
    rw [flatMap_cons, items, cons_append, splitBlocks, splitBlocks_txs, ih, append_nil]

variable {blocks : List BlockItem}

lemma batchBytes_inj {blocks' : List BlockItem} (hl : (batchBytes blocks).length < 2 ^ 63)
    (h : batchBytes blocks = batchBytes blocks') : blocks = blocks' := by
  rw [← flatMap_bytes] at hl h
  rw [← flatMap_bytes] at h
  have hi := StreamReader.flatMap_inj (batchBody_reads .reference ⟨[], by decide⟩).nonempty
    BatchItem.bytes_append_inj hl h
  have hs := congrArg splitBlocks hi
  rw [splitBlocks_items, splitBlocks_items, Prod.mk.injEq] at hs
  exact hs.2

/-- Data made of blocks whose transactions are all canonical. -/
def CanonicalData (data : List UInt8) : Prop :=
  ∃ blocks : List BlockItem, data = batchBytes blocks ∧
    ∀ block ∈ blocks, ∀ it ∈ block.txs, it.Canonical

lemma BlockItem.ofRaw_raw_iff (geth : GoEthereum) (blk : BlockItem) :
    ofRaw geth (blk.raw geth) = blk ↔ ∀ it ∈ blk.txs, it.Canonical := by
  obtain ⟨dt, idx, txs⟩ := blk
  simp only [ofRaw, raw, mk.injEq, true_and, map_map]
  rw [map_eq_self_iff]
  simp only [Function.comp_apply, TxItem.ofRaw_raw_iff]

lemma encodeBatchV2_blocks (hn : blocks ≠ []) : encodeBatchV2 geth (some ⟨blocks.map (raw geth)⟩) =
    .ok (batchBytes (blocks.map fun blk => ofRaw geth (blk.raw geth))) := by
  rw [encodeBatchV2_eq geth (by simpa using hn), map_map]
  · rfl
  intro blk hb tx ht
  obtain ⟨b, _, rfl⟩ := mem_map.mp hb
  obtain ⟨it, _, rfl⟩ := mem_map.mp ht
  exact it.encodable_raw geth

lemma encodeBatchV2_blocks_iff (hn : blocks ≠ []) (hl : (batchBytes blocks).length < 2 ^ 63) :
    encodeBatchV2 geth (some ⟨blocks.map (raw geth)⟩) = .ok (batchBytes blocks) ↔
    CanonicalData (batchBytes blocks) := by
  rw [encodeBatchV2_blocks geth hn, ok.injEq]
  constructor
  · intro h
    refine ⟨blocks, rfl, ?_⟩
    have hb := batchBytes_inj hl h.symm
    intro block hm
    exact (block.ofRaw_raw_iff geth).mp (map_eq_self_iff.mp hb.symm block hm)
  · rintro ⟨blocks', he, hc⟩
    obtain rfl := batchBytes_inj hl he
    rw [map_eq_self_iff.mpr fun block hm =>
      (block.ofRaw_raw_iff geth).mpr (hc block hm)]

/-- Accepted data is reproduced by the encoder exactly if it is canonical, and
no two canonical byte strings decode to the same batch. -/
theorem encodeBatchV2_decodeBatchV2_iff (geth : GoEthereum) (txsData : GoBytes)
    (batch : BatchRawV2) (hne : txsData.bytes ≠ [])
    (hdec : decodeBatchV2 geth txsData = .ok batch) :
    (encodeBatchV2 geth (some batch) = .ok txsData.bytes ↔ CanonicalData txsData.bytes) ∧
    (CanonicalData txsData.bytes → ∀ txsData' : GoBytes,
    txsData'.bytes ≠ [] → CanonicalData txsData'.bytes →
    decodeBatchV2 geth txsData' = .ok batch → txsData' = txsData) := by
  have hr : ∀ data : GoBytes, data.bytes ≠ [] → decodeBatchV2 geth data = .ok batch →
      (encodeBatchV2 geth (some batch) = .ok data.bytes ↔ CanonicalData data.bytes) := by
    intro data hnl hok
    obtain ⟨blocks, heq, rfl⟩ := (decodeBatchV2_ok_iff geth data batch).mp hok
    have hl := data.length_lt
    rw [heq] at hnl hl ⊢
    refine encodeBatchV2_blocks_iff geth ?_ hl
    rintro rfl
    exact hnl rfl
  refine ⟨hr txsData hne hdec, ?_⟩
  intro hca txsData' hne' hcn hdc
  have h := (hr txsData hne hdec).mpr hca
  have h' := (hr txsData' hne' hdc).mpr hcn
  rw [h, ok.injEq] at h'
  obtain ⟨bytes, _⟩ := txsData
  obtain ⟨byt', _⟩ := txsData'
  simp only at h'
  subst h'
  rfl

/-- A transaction whose nonce is written as a zero byte. -/
def paddedNonceData : List UInt8 :=
  changeL2Block :: replicate 8 0 ++
    [0xc6, 0x00, 0x80, 0x80, 0x80, 0x80, 0x80] ++ replicate 64 0 ++ [27, 255]

/-- The same transaction with an empty nonce field. -/
def emptyNonceData : List UInt8 :=
  changeL2Block :: replicate 8 0 ++
    [0xc6, 0x80, 0x80, 0x80, 0x80, 0x80, 0x80] ++ replicate 64 0 ++ [27, 255]

/-- Two different byte strings decode to one batch, and only one of them is
what the batch is encoded as. -/
theorem decodeBatchV2_paddedNonceData : decodeBatchV2 .reference ⟨paddedNonceData, by decide⟩ = .ok
    zeroTxBatch ∧ decodeBatchV2 .reference ⟨emptyNonceData, by decide⟩ = .ok zeroTxBatch ∧
    encodeBatchV2 .reference (some zeroTxBatch) = .ok emptyNonceData ∧ emptyNonceData ≠
    paddedNonceData := by
  refine ⟨?_, ?_, ?_, by decide⟩
  · decide +kernel
  · decide +kernel
  · decide +kernel

theorem encodeBatchV2_decodeBatchV2_iff_emptyNonceData :
    (encodeBatchV2 .reference (some zeroTxBatch) = .ok emptyNonceData ↔
    CanonicalData emptyNonceData) ∧
    (CanonicalData emptyNonceData → ∀ txsData' : GoBytes,
    txsData'.bytes ≠ [] → CanonicalData txsData'.bytes →
    decodeBatchV2 .reference txsData' = .ok zeroTxBatch →
    txsData' = ⟨emptyNonceData, by decide⟩) :=
  encodeBatchV2_decodeBatchV2_iff .reference ⟨emptyNonceData, by decide⟩
    zeroTxBatch (by decide) (by decide +kernel)

end EthdaNode.State
