import EthdaNode.State.BatchFormat

/-!
# The Etrog batch codec: results

What `EncodeBatchV2` writes and `DecodeBatchV2` reads, related through the
batch format: the round trip, the concatenation of batch data, the data that
the codec reproduces, and the inputs on which the decoder panics.
-/

namespace EthdaNode.State

open Go Go.Outcome BigEndian List BlockItem

/-! ## What the encoder writes -/

variable (geth : GoEthereum)

def TxItem.ofRaw (raw : L2TxRaw) : TxItem where
  fields := (rlpFieldsToEncode geth raw.tx).map RlpValue.content
  r := HexText.fixedBytes 32 (raw.tx.r % 2 ^ 256)
  s := HexText.fixedBytes 32 (raw.tx.s % 2 ^ 256)
  v := vByte raw.tx
  efficiencyPercentage := raw.efficiencyPercentage
  fields_length := by
    rw [length_map, rlpFieldsToEncode]
    split <;> simp
  r_length := HexText.length_fixedBytes (Nat.mod_lt _ (by norm_num))
  s_length := HexText.length_fixedBytes (Nat.mod_lt _ (by norm_num))

def BlockItem.ofRaw (geth : GoEthereum) (raw : L2BlockRaw) : BlockItem :=
  ⟨raw.deltaTimestamp, raw.indexL1InfoTree, raw.transactions.map (TxItem.ofRaw geth)⟩

/-- A transaction whose `R` and `S` have at most 256 bits. -/
def L2TxRaw.Encodable (raw : L2TxRaw) : Prop := raw.tx.r < 2 ^ 256 ∧ raw.tx.s < 2 ^ 256

variable (geth : GoEthereum) {raw : L2TxRaw}

lemma prepareTx_eq_body (h : raw.Encodable) :
    prepareRPLTxData geth raw.tx = .ok (TxItem.ofRaw geth raw).body := by
  rw [prepareTx_eq geth h.1 h.2]
  simp only [TxItem.body, TxItem.ofRaw, Nat.mod_eq_of_lt h.1, Nat.mod_eq_of_lt h.2]

variable (batchData : List UInt8)

lemma encodeTxRLP_eq (h : raw.Encodable) : encodeTxRLP geth batchData raw =
    .ok (batchData ++ (TxItem.ofRaw geth raw).bytes) := by
  simp [encodeTxRLP, prepareTx_eq_body geth h, mapErr, TxItem.bytes, TxItem.ofRaw]

lemma encodeBlockV2_eq {raw : L2BlockRaw} (h : ∀ tx ∈ raw.transactions, tx.Encodable) :
    encodeBlockV2 geth batchData raw = .ok (batchData ++ (ofRaw geth raw).bytes) := by
  have ht : ∀ acc, ∀ tx ∈ raw.transactions,
      (encodeTxRLP geth acc tx).mapErr (GoError.wrap "can't encode tx: ") =
      .ok (acc ++ (TxItem.ofRaw geth tx).bytes) := by
    intro acc tx hm
    rw [encodeTxRLP_eq geth acc (h tx hm)]
    rfl
  simp only [encodeBlockV2, encodeBlockHeaderV2, mapErr_ok, ok_bind]
  rw [foldlM_append _ _ ht]
  simp [bytes, ofRaw, headerBytes, flatMap_map]

lemma encodeBatchV2_eq {batch : BatchRawV2} (hne : batch.blocks ≠ [])
    (h : ∀ blk ∈ batch.blocks, ∀ tx ∈ blk.transactions, tx.Encodable) :
    encodeBatchV2 geth (some batch) = .ok (batchBytes (batch.blocks.map (ofRaw geth))) := by
  have hl : batch.blocks.length ≠ 0 := by simpa using hne
  simp only [encodeBatchV2, if_neg hl]
  have hb : ∀ acc, ∀ blk ∈ batch.blocks, encodeBlockV2 geth acc blk = .ok (acc ++ (ofRaw geth
    blk).bytes) := fun acc blk hm => encodeBlockV2_eq geth acc (h blk hm)
  rw [foldlM_append _ _ hb]
  simp [batchBytes, flatMap_map]

/-! ## The round trip -/

lemma map_eq_self_iff {α : Type} {f : α → α} {l : List α} : l.map f = l ↔ ∀ a ∈ l, f a = a := by
  simpa only [map_id, id_eq] using @map_inj_left α α l f id

lemma TxItem.raw_ofRaw (h : raw.tx.Signed) : (TxItem.ofRaw geth raw).raw geth = raw := by
  have hr := legacyTx_fieldsToEncode geth h
  simp only [TxItem.raw, TxItem.tx, TxItem.ofRaw, Nat.mod_eq_of_lt h.r_lt,
    Nat.mod_eq_of_lt h.s_lt, hr]

lemma BlockItem.raw_ofRaw {raw : L2BlockRaw} (h : ∀ tx ∈ raw.transactions, tx.tx.Signed) :
    (BlockItem.ofRaw geth raw).raw geth = raw := by
  have ht : (raw.transactions.map (TxItem.ofRaw geth)).map (TxItem.raw geth) =
      raw.transactions := by
    rw [map_map]
    exact map_eq_self_iff.mpr fun tx hm => TxItem.raw_ofRaw geth (h tx hm)
  simp only [BlockItem.raw, BlockItem.ofRaw, ht]

variable {td : GoBytes}

lemma decodeBatchV2_of_blocks {blocks : List L2BlockRaw} (hd : td.bytes =
    batchBytes (blocks.map (ofRaw geth))) (hs : ∀ block ∈ blocks, ∀ tx ∈ block.transactions,
    tx.tx.Signed) : decodeBatchV2 geth td = .ok ⟨blocks⟩ := by
  refine (decodeBatchV2_ok_iff geth _ _).mpr ⟨_, hd, ?_⟩
  have hb : (blocks.map (ofRaw geth)).map (raw geth) = blocks := by
    rw [map_map]
    exact map_eq_self_iff.mpr fun block hm =>
      raw_ofRaw geth (hs block hm)
  rw [hb]

/-- `EncodeBatchV2` succeeds on every batch of signed transactions that has a
block, and `DecodeBatchV2` gives the batch back. -/
theorem decodeBatchV2_encodeBatchV2 (geth : GoEthereum) (batch : BatchRawV2)
    (hne : batch.blocks ≠ [])
    (hsgn : ∀ block ∈ batch.blocks, ∀ tx ∈ block.transactions, tx.tx.Signed) :
    ∃ data, encodeBatchV2 geth (some batch) = .ok data ∧ ∀ hlen : data.length < 2 ^ 63,
    decodeBatchV2 geth ⟨data, hlen⟩ = .ok batch := by
  refine ⟨_, encodeBatchV2_eq geth hne fun block hb tx htx =>
    ⟨(hsgn block hb tx htx).r_lt, (hsgn block hb tx htx).s_lt⟩, ?_⟩
  intro hlen
  exact decodeBatchV2_of_blocks geth rfl hsgn

def zeroTxBatch : BatchRawV2 := ⟨[⟨0, 0, [⟨⟨0, 0, 0, none, 0, [], 27, 0, 0⟩, 255⟩]⟩]⟩

theorem decodeBatchV2_encodeBatchV2_zeroTxBatch :
    ∃ data, encodeBatchV2 .reference (some zeroTxBatch) = .ok data ∧ ∀ hlen : data.length < 2 ^ 63,
    decodeBatchV2 .reference ⟨data, hlen⟩ = .ok zeroTxBatch := by
  refine decodeBatchV2_encodeBatchV2 .reference zeroTxBatch (by decide) ?_
  intro blk hb tx htx
  simp only [zeroTxBatch, mem_singleton] at hb
  subst hb
  simp only [mem_singleton] at htx
  subst htx
  exact ⟨.inl rfl, by norm_num, by norm_num⟩

/-- Batch data is compositional: the blocks of `b₁ ++ b₂` are those of `b₁`
followed by those of `b₂`. -/
theorem decodeBatchV2_append (geth : GoEthereum) (b₁ b₂ : GoBytes)
    (hlen : (b₁.bytes ++ b₂.bytes).length < 2 ^ 63) (batch₁ batch₂ : BatchRawV2)
    (h₁ : decodeBatchV2 geth b₁ = .ok batch₁) (h₂ : decodeBatchV2 geth b₂ = .ok batch₂) :
    decodeBatchV2 geth ⟨b₁.bytes ++ b₂.bytes, hlen⟩ = .ok ⟨batch₁.blocks ++ batch₂.blocks⟩ := by
  obtain ⟨blocks, heq₁, rfl⟩ := (decodeBatchV2_ok_iff geth b₁ batch₁).mp h₁
  obtain ⟨blo, heq₂, rfl⟩ := (decodeBatchV2_ok_iff geth b₂ batch₂).mp h₂
  refine (decodeBatchV2_ok_iff geth _ _).mpr ⟨blocks ++ blo, ?_, ?_⟩
  · simp only [heq₁, heq₂, batchBytes, flatMap_append]
  · simp

def zeroTxBytes : GoBytes :=
  ⟨batchBytes (zeroTxBatch.blocks.map (BlockItem.ofRaw .reference)), by decide +kernel⟩

theorem decodeBatchV2_append_zeroTxBytes : decodeBatchV2 .reference
    ⟨zeroTxBytes.bytes ++ changeL2Block :: List.replicate 8 1, by decide +kernel⟩ =
    .ok ⟨zeroTxBatch.blocks ++ [⟨0x01010101, 0x01010101, []⟩]⟩ :=
  decodeBatchV2_append .reference zeroTxBytes ⟨changeL2Block :: List.replicate 8 1, by decide⟩
    (by decide +kernel) zeroTxBatch ⟨[⟨0x01010101, 0x01010101, []⟩]⟩
    (by decide +kernel) (by decide +kernel)

/-- No sequence of whole blocks at the start of the data is followed by a
wrapped length. -/
def NoWrappedLength (data : List UInt8) : Prop :=
  ¬∃ blocks : List BlockItem, batchBytes blocks <+: data ∧
    WrappedLength data (batchBytes blocks).length

/-- `DecodeBatchV2` returns a batch or an error; the slice expressions of `decodeTxRLP` are in
bounds, and every iteration advances. -/
structure DecodesSafely (geth : GoEthereum) (txsData : GoBytes) : Prop where
  returns : (decodeBatchV2 geth txsData).Returns
  inBounds : ∀ s, DecodeReaches geth txsData s →
    s.pos < txsData.bytes.length → decodeTxRLP geth txsData s.pos ≠ .panic
  advances : ∀ s s', DecodeReaches geth txsData s → s.pos < txsData.bytes.length →
      decodeBatchV2Body geth txsData s = .ok (.next s') → s.pos < s'.pos

lemma inBounds_of_noWrappedLength (h : NoWrappedLength td.bytes) {s : DecodeState}
    (hr : DecodeReaches geth td s) (hps : s.pos < td.bytes.length) :
    decodeTxRLP geth td s.pos ≠ .panic := by
  intro hpn
  obtain ⟨blocks, hpr, rfl⟩ := (decodeReaches_iff geth td s).mp hr
  have hw := (decodeTxRLP_panic_iff geth td hps).mp hpn
  rw [pos_foldl_blocks geth td hpr] at hw
  exact h ⟨blocks, hpr, hw⟩

/-- The decoder is safe exactly on the data without a wrapped length. -/
theorem decodesSafely_iff (geth : GoEthereum) (txsData : GoBytes) :
    DecodesSafely geth txsData ↔ NoWrappedLength txsData.bytes := by
  constructor
  · intro hs hw
    exact hs.returns.1 ((decodeV2_eq_panic_iff geth txsData).mpr hw)
  intro hno
  refine ⟨⟨?_, decodeBatchV2_ne_hang geth txsData⟩, ?_, ?_⟩
  · intro hpn
    exact hno ((decodeV2_eq_panic_iff geth txsData).mp hpn)
  · intro s hr hps
    exact inBounds_of_noWrappedLength geth hno hr hps
  · intro s s' _ hps hb
    exact StreamReader.advance (batchBody_reads geth txsData) (decide_eq_true hps) hb

/-- One block header and a list header whose length is 2 ^ 64 - 84. -/
def wrappedLengthData : List UInt8 :=
  [0x0b, 0, 0, 0, 0, 0, 0, 0, 0, 0xff, 0xff, 0xff, 0xff, 0xff, 0xff, 0xff, 0xff, 0xac]

/-- With the wrapped length, `endPos` is 0 and the slice `[9:0]` panics. -/
theorem decodeBatchV2_wrappedLengthData :
    decodeBatchV2 .reference ⟨wrappedLengthData, by decide⟩ = .panic := by
  decide +kernel

lemma noWrappedLength_of_not_mem {data : List UInt8} (h : 0xff ∉ data) : NoWrappedLength data := by
  rintro ⟨blocks, _, hf, _⟩
  exact h (mem_of_getElem? hf)

theorem decodesSafely_header :
    DecodesSafely .reference ⟨changeL2Block :: List.replicate 8 0, by decide⟩ :=
  (decodesSafely_iff _ _).mpr (noWrappedLength_of_not_mem (by decide))

end EthdaNode.State
