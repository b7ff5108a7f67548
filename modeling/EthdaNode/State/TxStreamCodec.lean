import EthdaNode.State.BatchV2
import EthdaNode.State.TxStream

/-!
# The transaction stream codec: results

The round trip of `EncodeTransactions` and `DecodeTxs`, the safety of
`DecodeTxs`, and the relation of `DecodeTxs` to `DecodeBatchV2`: the two
decoders agree on the data in which no length is cut off.
-/

namespace EthdaNode.State

open Go Go.Outcome BigEndian List TxItem

/-! ## What the encoder writes -/

lemma decodeHex_text (p : UInt8) : decodeHex (HexText.text p.toNat) = .ok [p] := by
  have ha : ∀ n : Fin 256, decodeHex (HexText.text n) = .ok [UInt8.ofNat n] := by decide +kernel
  have h := ha ⟨p.toNat, p.toNat_lt⟩
  rwa [UInt8.ofNat_toNat] at h

variable {pcts : List UInt8}

lemma index_getD {i : ℕ} (h : i < pcts.length) :
    (index pcts i : Outcome GoError UInt8) = .ok (pcts.getD i 0) := by
  rw [index_ok_iff, getD_eq_getElem?_getD, getElem?_eq_getElem h, Option.getD_some]

variable (geth : GoEthereum)

def TxItem.ofIndexed (percentages : List UInt8) (txi : LegacyTx × ℕ) : TxItem :=
  ofRaw geth ⟨txi.1, percentages.getD txi.2 0⟩

variable (fk : UInt64)

lemma encodeTxsBody_eq (acc : List UInt8) {txi : LegacyTx × ℕ} (hs : txi.1.Signed)
    (hi : txi.2 < pcts.length) : encodeTransactionsBody geth pcts fk acc txi = .ok
    (acc ++ (ofIndexed geth pcts txi).streamBytes fk) := by
  have hb : prepareRPLTxData geth txi.1 = .ok (ofIndexed geth pcts txi).body :=
    @prepareTx_eq_body geth ⟨txi.1, pcts.getD txi.2 0⟩ ⟨hs.r_lt, hs.s_lt⟩
  rw [encodeTransactionsBody, hb, ok_bind]
  by_cases hf : fk ≥ forkIdDragonfruit
  · have ho : percentageLength fk = 1 := if_pos hf
    rw [if_pos hf, index_getD hi, ok_bind, decodeHex_text]
    simp [streamBytes, percentage, ho, ofIndexed, ofRaw]
  have hz : percentageLength fk = 0 := if_neg hf
  rw [if_neg hf]
  simp [streamBytes, percentage, hz]

variable {txs : List LegacyTx}

lemma encodeTxs_eq (hl : pcts.length = txs.length) (hsg : ∀ tx ∈ txs, tx.Signed) :
    encodeTransactions geth txs pcts fk =
    .ok (streamOf fk (txs.zipIdx.map (ofIndexed geth pcts))) := by
  have hs : ∀ acc, ∀ txi ∈ txs.zipIdx, encodeTransactionsBody geth pcts fk acc txi =
      .ok (acc ++ (ofIndexed geth pcts txi).streamBytes fk) := by
    rintro acc ⟨tx, i⟩ hm
    have hg := mem_zipIdx_iff_getElem?.mp hm
    refine encodeTxsBody_eq geth fk acc (hsg tx ?_) ?_
    · exact mem_of_getElem? hg
    · rw [hl]
      exact (List.getElem?_eq_some_iff.mp hg).1
  rw [encodeTransactions, foldlM_append txs.zipIdx [] hs]
  simp [streamOf, flatMap_map]

lemma encodeTx_eq {fk : UInt64} (hf : fk ≥ forkIdDragonfruit) {raw : L2TxRaw} (hs : raw.tx.Signed) :
    encodeTransaction geth raw.tx raw.efficiencyPercentage fk = .ok (ofRaw geth raw).bytes := by
  have ho : percentageLength fk = 1 := if_pos hf
  rw [encodeTransaction, encodeTxs_eq geth fk rfl (by simpa using hs)]
  simp [streamOf, streamBytes, percentage, ho, bytes, ofIndexed]

lemma map_tx_ofIndexed (pcts : List UInt8) (hs : ∀ tx ∈ txs, tx.Signed) :
    (txs.zipIdx.map (ofIndexed geth pcts)).map (tx geth) = txs := by
  rw [map_map]
  calc txs.zipIdx.map (tx geth ∘ ofIndexed geth pcts) = txs.zipIdx.map Prod.fst := by
        apply map_congr_left
        rintro ⟨tx, i⟩ hm
        have hg := mem_zipIdx_iff_getElem?.mp hm
        have hr := @raw_ofRaw geth ⟨tx, pcts.getD i 0⟩ (hs tx (mem_of_getElem? hg))
        exact congrArg L2TxRaw.tx hr
    _ = txs := zipIdx_map_fst 0 txs

lemma flatMap_pct_ofIndexed (hl : pcts.length = txs.length) :
    (txs.zipIdx.map (ofIndexed geth pcts)).flatMap (percentage fk) =
    if fk ≥ forkIdDragonfruit then pcts else [] := by
  by_cases hf : fk ≥ forkIdDragonfruit
  · have ho : percentageLength fk = 1 := if_pos hf
    have hs : (fun txi => (ofIndexed geth pcts txi).percentage
        fk) = fun txi => [pcts.getD txi.2 0] := by
      funext txi
      simp [percentage, ho, ofIndexed, ofRaw]
    rw [if_pos hf, flatMap_map, hs, ← map_eq_flatMap]
    apply ext_getElem
    · simp [hl]
    · intro i _ hi
      simp [hi]
  · have hz : percentageLength fk = 0 := if_neg hf
    rw [if_neg hf, flatMap_map]
    simp [percentage, hz]

/-- `DecodeTxs` gives back the transactions that `EncodeTransactions` has
written, with the percentages from Dragonfruit on; on any data it returns. -/
theorem decodeTxs_encodeTransactions (geth : GoEthereum) (forkID : UInt64) :
    (∀ (txs : List LegacyTx) (percentages : List UInt8),
    percentages.length = txs.length → (∀ tx ∈ txs, tx.Signed) →
    ∃ data, encodeTransactions geth txs percentages forkID = .ok data ∧
    ∀ hlen : data.length < 2 ^ 63, decodeTxs geth ⟨data, hlen⟩ forkID = .ok ⟨txs, data,
    if forkID ≥ forkIdDragonfruit then percentages else []⟩) ∧
    ∀ txsData : GoBytes, (decodeTxs geth txsData forkID).Returns := by
  constructor
  · intro txs percentages hlen hs
    refine ⟨_, encodeTxs_eq geth forkID hlen hs, ?_⟩
    intro hd
    refine (decodeTxs_ok_iff geth _ forkID _).mpr (.inl ⟨_, rfl, ?_⟩)
    rw [map_tx_ofIndexed geth percentages hs, flatMap_pct_ofIndexed geth forkID hlen]
  · intro txsData
    exact ⟨decodeTxs_ne_panic geth txsData forkID, decodeTxs_ne_hang geth txsData forkID⟩

theorem decodeTxs_encodeTransactions_one : ∃ data, encodeTransactions .reference
    [⟨3, 1000, 21000, none, 5, [], 2037, 7, 9⟩] [200] forkIdEtrog = .ok data ∧
    ∀ hlen : data.length < 2 ^ 63, decodeTxs .reference ⟨data, hlen⟩ forkIdEtrog =
    .ok ⟨[⟨3, 1000, 21000, none, 5, [], 2037, 7, 9⟩], data, [200]⟩ := by
  refine (decodeTxs_encodeTransactions .reference forkIdEtrog).1
    [⟨3, 1000, 21000, none, 5, [], 2037, 7, 9⟩] [200] rfl ?_
  intro tx htx
  rw [mem_singleton.mp htx]
  exact ⟨.inr (.inr ⟨1001, .inl rfl⟩), by norm_num, by norm_num⟩

/-! ## Agreement with `DecodeBatchV2` -/

/-- Whole transactions, followed by a length that is cut off. -/
def EndsInTruncatedLength (data : List UInt8) : Prop :=
  ∃ its : List TxItem, its.flatMap bytes <+: data ∧ TruncatedLength data (its.flatMap bytes).length

/-- `DecodeTxs` returns the transactions `txs` with `percentages` exactly if `DecodeBatchV2`, on the
same data after a block header, returns one block with them. -/
def DecodersAgree (txsData : GoBytes) : Prop :=
  ∀ (header : List UInt8) (data : GoBytes) (txs : List LegacyTx)
    (percentages : List UInt8), header.length = 8 →
      data.bytes = changeL2Block :: (header ++ txsData.bytes) →
        ((∃ decoded, decodeTxs geth txsData forkIdEtrog = .ok decoded ∧
            decoded.txs = txs ∧ decoded.efficiencyPercentages = percentages) ↔
          ∃ block, decodeBatchV2 geth data = .ok ⟨[block]⟩ ∧
            block.transactions.map L2TxRaw.tx = txs ∧
            block.transactions.map L2TxRaw.efficiencyPercentage = percentages)

lemma exists_header {header : List UInt8} (hl : header.length = 8) :
    ∃ dt idx, header = serializeUint32 dt ++ serializeUint32 idx := by
  have hf : ∀ bs : List UInt8, bs.length = 4 → ∃ value, bs = serializeUint32 value := by
    intro bs hb
    have ht := ofBytes_lt bs
    rw [hb] at ht
    refine ⟨UInt32.ofNat (ofBytes bs), ?_⟩
    apply ofBytes_inj
    · rw [hb, length_serialize32]
    · rw [ofBytes_serialize32, UInt32.toNat_ofNat']
      omega
  obtain ⟨dt, hd⟩ := hf (header.take 4) (by simp [hl])
  obtain ⟨idx, hi⟩ := hf (header.drop 4) (by simp [hl])
  exact ⟨dt, idx, by rw [← hd, ← hi, take_append_drop]⟩

lemma decodeV2_eq_single_iff {data : GoBytes} {header rest : List UInt8} (hhd : header.length = 8)
    (hd : data.bytes = changeL2Block :: (header ++ rest)) (blk : L2BlockRaw) : decodeBatchV2 geth
    data = .ok ⟨[blk]⟩ ↔ ∃ dt idx, header = serializeUint32 dt ++ serializeUint32 idx ∧ ∃ its : List
    TxItem, rest = its.flatMap bytes ∧ blk = ⟨dt, idx, its.map (raw geth)⟩ := by
  rw [decodeBatchV2_ok_iff, hd]
  constructor
  · rintro ⟨blocks, he, hb⟩
    rw [BatchRawV2.mk.injEq, eq_comm, map_eq_singleton_iff] at hb
    obtain ⟨b, rfl, rfl⟩ := hb
    simp only [batchBytes, flatMap_singleton, BlockItem.bytes,
      BlockItem.headerBytes, cons_append, cons.injEq, true_and] at he
    obtain ⟨hh, hr⟩ := append_inj he (by rw [hhd, length_append]; rfl)
    exact ⟨_, _, hh, b.txs, hr, rfl⟩
  · rintro ⟨dt, idx, rfl, its, rfl, rfl⟩
    refine ⟨[⟨dt, idx, its⟩], ?_, rfl⟩
    simp [batchBytes, BlockItem.bytes, BlockItem.headerBytes]

lemma flatMap_pct_etrog (its : List TxItem) : its.flatMap (percentage forkIdEtrog) =
    its.map efficiencyPercentage :=
  map_eq_flatMap.symm

lemma decodeTxs_etrog_iff (buf : GoBytes) (decoded : DecodedTxs) : decodeTxs geth buf forkIdEtrog =
    .ok decoded ↔ (∃ its : List TxItem, buf.bytes = its.flatMap bytes ∧
    decoded = ⟨its.map (tx geth), buf.bytes, its.map efficiencyPercentage⟩) ∨ (EndsInTruncatedLength
    buf.bytes ∧ decoded = ⟨[], buf.bytes, []⟩) := by
  simp only [decodeTxs_ok_iff, flatMap_pct_etrog]
  rfl

lemma not_endsInTruncatedLength {buf : GoBytes} {its : List TxItem}
    (h : buf.bytes = its.flatMap bytes) : ¬EndsInTruncatedLength buf.bytes := by
  intro ht
  have hs := (decodeTxs_etrog_iff .reference buf _).mpr (.inl ⟨its, h, rfl⟩)
  have hn := (decodeTxs_etrog_iff .reference buf _).mpr (.inr ⟨ht, rfl⟩)
  rw [hs, ok.injEq, DecodedTxs.mk.injEq, map_eq_nil_iff] at hn
  obtain ⟨its', _, hc⟩ := ht
  have hl := hc.lt_length
  rw [h, hn.1, flatMap_nil] at hl
  exact absurd hl (Nat.not_lt_zero _)

/-- The two decoders agree exactly on the data that does not end in a length
that is cut off. -/
theorem decodersAgree_iff (geth : GoEthereum) (txsData : GoBytes)
    (hlen : txsData.bytes.length + 9 < 2 ^ 63) :
    DecodersAgree geth txsData ↔ ¬EndsInTruncatedLength txsData.bytes := by
  constructor
  · intro hag htr
    have hdc := (decodeTxs_etrog_iff geth txsData _).mpr (.inr ⟨htr, rfl⟩)
    obtain ⟨blk, hb, htx, _⟩ := (hag (replicate 8 0)
      ⟨changeL2Block :: (replicate 8 0 ++ txsData.bytes),
        by simp; omega⟩ [] [] rfl rfl).mp ⟨_, hdc, rfl, rfl⟩
    obtain ⟨_, _, _, its, hi, _⟩ := (decodeV2_eq_single_iff geth rfl rfl blk).mp hb
    exact not_endsInTruncatedLength hi htr
  intro hno header data txs percentages hhd hdt
  constructor
  · rintro ⟨decoded, hdc, rfl, rfl⟩
    rcases (decodeTxs_etrog_iff geth txsData decoded).mp hdc with
      ⟨its, hi, rfl⟩ | ⟨htr, _⟩
    · obtain ⟨dt, idx, hhe⟩ := exists_header hhd
      refine ⟨_, (decodeV2_eq_single_iff geth hhd hdt _).mpr ⟨dt, idx, hhe, its, hi, rfl⟩, ?_, ?_⟩
      · rw [map_map]
        rfl
      · rw [map_map]
        rfl
    · exact absurd htr hno
  · rintro ⟨blk, hb, rfl, rfl⟩
    obtain ⟨_, _, _, its, hi, rfl⟩ := (decodeV2_eq_single_iff geth hhd hdt blk).mp hb
    refine ⟨_, (decodeTxs_etrog_iff geth txsData _).mpr (.inl ⟨its, hi, rfl⟩), ?_, ?_⟩
    · rw [map_map]
      rfl
    · rw [map_map]
      rfl

/-- One byte of a list header: `DecodeTxs` returns no transactions and a nil
error, `DecodeBatchV2` an error. -/
theorem decodeTxs_truncated :
    decodeTxs .reference ⟨[0xf8], by decide⟩ forkIdEtrog = .ok ⟨[], [0xf8], []⟩ ∧
    decodeBatchV2 .reference ⟨changeL2Block :: (replicate 8 0 ++ [0xf8]), by decide⟩ =
    .err (.wrap "can't decode transactions: " (.wrap "can't get RLP length (offset=9): "
    (.wrap "not enough data to get length: " .errInvalidRLP))) :=
  ⟨by decide +kernel, by decide +kernel⟩

def TxItem.zero : TxItem where
  fields := replicate 6 []
  r := replicate 32 0
  s := replicate 32 0
  v := 27
  efficiencyPercentage := 255
  fields_length := by decide
  r_length := zeros32
  s_length := zeros32

theorem decodersAgree_zero : DecodersAgree .reference ⟨zero.bytes, by decide +kernel⟩ :=
  (decodersAgree_iff .reference _ (by decide +kernel)).mpr
    (@not_endsInTruncatedLength ⟨zero.bytes, by decide +kernel⟩ [zero] (by simp))

end EthdaNode.State
