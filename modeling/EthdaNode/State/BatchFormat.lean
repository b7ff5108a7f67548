import EthdaNode.State.TxFormat

/-!
# The Etrog batch format

Batch data as a sequence of blocks, each a header followed by transactions,
stated without reference to a decoder. `DecodeBatchV2` accepts exactly the
concatenations of blocks and returns the blocks it was written from; it panics
exactly if a concatenation of blocks is followed by a wrapped length.
-/

namespace EthdaNode.State

open Go Go.Outcome BigEndian List StreamReader Nat

structure BlockItem where
  deltaTimestamp : UInt32
  indexL1InfoTree : UInt32
  txs : List TxItem

namespace BlockItem

def headerBytes (deltaTimestamp indexL1InfoTree : UInt32) : List UInt8 :=
  changeL2Block :: (serializeUint32 deltaTimestamp ++ serializeUint32 indexL1InfoTree)

def bytes (block : BlockItem) : List UInt8 :=
  headerBytes block.deltaTimestamp block.indexL1InfoTree ++ block.txs.flatMap TxItem.bytes

def raw (geth : GoEthereum) (block : BlockItem) : L2BlockRaw :=
  ⟨block.deltaTimestamp, block.indexL1InfoTree, block.txs.map (TxItem.raw geth)⟩

end BlockItem

def batchBytes (blocks : List BlockItem) : List UInt8 := blocks.flatMap BlockItem.bytes

/-! ## 32-bit numbers -/

lemma length_serialize32 (vl : UInt32) : (serializeUint32 vl).length = 4 := rfl

lemma ofBytes_serialize32 (vl : UInt32) : ofBytes (serializeUint32 vl) = vl.toNat := by
  have h := vl.toNat_lt
  simp [serializeUint32, ofBytes, shiftRight_eq_div_pow]
  omega

lemma toNat_shift_or (b₀ b₁ b₂ b₃ : UInt8) :
    (b₀.toUInt32 <<< 24 ||| b₁.toUInt32 <<< 16 ||| b₂.toUInt32 <<< 8 |||
    b₃.toUInt32).toNat = ofBytes [b₀, b₁, b₂, b₃] := by
  have h₀ := b₀.toNat_lt
  have h₁ := b₁.toNat_lt
  have h₂ := b₂.toNat_lt
  have h₃ := b₃.toNat_lt
  have e₁ := two_pow_add_eq_or_of_lt (i := 24) (show b₁.toNat * 2 ^ 16 < 2 ^ 24 by omega) b₀.toNat
  have e₂ := two_pow_add_eq_or_of_lt (i := 16)
    (show b₂.toNat * 2 ^ 8 < 2 ^ 16 by omega) (b₀.toNat * 2 ^ 8 + b₁.toNat)
  have e₃ := two_pow_add_eq_or_of_lt (i := 8) (show b₃.toNat < 2 ^ 8 by omega)
    (b₀.toNat * 2 ^ 16 + b₁.toNat * 2 ^ 8 + b₂.toNat)
  simp only [UInt32.toNat_or, UInt32.toNat_shiftLeft, UInt8.toNat_toUInt32, UInt32.toNat_ofNat,
    reducePow, reduceMod, shiftLeft_eq, ofBytes, foldl_cons, foldl_nil] at e₁ e₂ e₃ ⊢
  rw [mod_eq_of_lt (by omega), mod_eq_of_lt (by omega), mod_eq_of_lt (by omega)]
  rw [mul_comm b₀.toNat 16777216, ← e₁]
  rw [show 16777216 * b₀.toNat + b₁.toNat * 65536 =
    65536 * (b₀.toNat * 256 + b₁.toNat) by omega, ← e₂]
  rw [show 65536 * (b₀.toNat * 256 + b₁.toNat) + b₂.toNat * 256 =
    256 * (b₀.toNat * 65536 + b₁.toNat * 256 + b₂.toNat) by omega, ← e₃]
  omega

variable (txsData td : GoBytes) (pos : ℕ)

lemma deserialize32_ok_iff (pos' : ℕ) (value : UInt32) : deserializeUint32 td pos = .ok
    (pos', value) ↔ serializeUint32 value <+: td.bytes.drop pos ∧ pos' = pos + 4 := by
  by_cases hf : pos + 4 ≤ td.bytes.length
  · obtain ⟨b₀, b₁, b₂, b₃, rest, hd⟩ : ∃ b₀ b₁ b₂ b₃ rest,
        td.bytes.drop pos = b₀ :: b₁ :: b₂ :: b₃ :: rest := by
      have hn : 4 ≤ (td.bytes.drop pos).length := by simp; omega
      match h : td.bytes.drop pos, hn with
      | b₀ :: b₁ :: b₂ :: b₃ :: rest, _ => exact ⟨b₀, b₁, b₂, b₃, rest, rfl⟩
    have hp : pos ≤ td.bytes.length := by omega
    have i₀ : (index td.bytes pos : Outcome GoError UInt8) = .ok b₀ :=
      index_of_drop (a := []) hd hp rfl
    have i₁ : (index td.bytes (pos + 1) : Outcome GoError UInt8) = .ok b₁ :=
      index_of_drop (a := [b₀]) hd hp rfl
    have i₂ : (index td.bytes (pos + 2) : Outcome GoError UInt8) = .ok b₂ :=
      index_of_drop (a := [b₀, b₁]) hd hp rfl
    have i₃ : (index td.bytes (pos + 3) : Outcome GoError UInt8) = .ok b₃ :=
      index_of_drop (a := [b₀, b₁, b₂]) hd hp rfl
    have hr : deserializeUint32 td pos = .ok (pos + 4,
        b₀.toUInt32 <<< 24 ||| b₁.toUInt32 <<< 16 ||| b₂.toUInt32 <<< 8 ||| b₃.toUInt32) := by
      rw [deserializeUint32, if_neg (by omega)]
      simp only [i₀, i₁, i₂, i₃, ok_bind]
    have hb : serializeUint32 value <+: td.bytes.drop pos ↔
        serializeUint32 value = [b₀, b₁, b₂, b₃] := by
      rw [hd]
      constructor
      · intro h
        have ht := prefix_iff_eq_take.mp h
        simpa [length_serialize32] using ht
      intro h
      rw [h]
      exact ⟨rest, rfl⟩
    have hv : serializeUint32 value = [b₀, b₁, b₂, b₃] ↔ b₀.toUInt32 <<< 24 ||| b₁.toUInt32 <<< 16
        ||| b₂.toUInt32 <<< 8 ||| b₃.toUInt32 = value := by
      rw [← UInt32.toNat_inj, toNat_shift_or, ← ofBytes_serialize32]
      constructor
      · intro h
        rw [h]
      · intro h
        exact ofBytes_inj rfl h.symm
    rw [hr, hb, hv, ok.injEq, Prod.mk.injEq]
    constructor
    · rintro ⟨rfl, h⟩
      exact ⟨h, rfl⟩
    · rintro ⟨h, rfl⟩
      exact ⟨rfl, h⟩
  · rw [deserializeUint32, if_pos (by omega)]
    constructor
    · intro h
      cases h
    rintro ⟨hpr, _⟩
    have hl := hpr.length_le
    rw [length_serialize32, length_drop] at hl
    omega

lemma deserialize32_returns : (deserializeUint32 td pos).Returns := by
  by_cases hf : (td.bytes.length : ℤ) - pos < 4
  · rw [deserializeUint32, if_pos hf]
    exact returns_err _
  have hd : ∀ i, i < 4 → ∃ b, (index td.bytes (pos + i) : Outcome GoError UInt8) = .ok b := by
    intro i hi
    exact ⟨_, index_ok_iff.mpr (getElem?_eq_getElem (by omega))⟩
  obtain ⟨b₀, h₀⟩ := hd 0 (by omega)
  obtain ⟨b₁, h₁⟩ := hd 1 (by omega)
  obtain ⟨b₂, h₂⟩ := hd 2 (by omega)
  obtain ⟨b₃, h₃⟩ := hd 3 (by omega)
  rw [add_zero] at h₀
  rw [deserializeUint32, if_neg hf]
  simp only [h₀, h₁, h₂, h₃, ok_bind]
  exact returns_ok _

lemma decodeBlockHeader_ok_iff (pos' : ℕ) (blk : L2BlockRaw) : decodeBlockHeader td pos = .ok (pos',
    blk) ↔ ∃ dlt ili, serializeUint32 dlt ++ serializeUint32 ili <+: td.bytes.drop pos ∧ pos' =
    pos + 8 ∧ blk = ⟨dlt, ili, []⟩ := by
  simp only [decodeBlockHeader, bind_ok_iff, mapErr_ok_iff, Prod.exists,
    deserialize32_ok_iff, ok.injEq, Prod.mk.injEq]
  constructor
  · rintro ⟨_, dt, ⟨hd, rfl⟩, _, idx, ⟨hi, rfl⟩, rfl, rfl⟩
    refine ⟨dt, idx, ?_, by omega, rfl⟩
    exact prefix_drop_append hd hi
  rintro ⟨dt, idx, ⟨rest, hp⟩, rfl, rfl⟩
  refine ⟨pos + 4, dt, ⟨⟨serializeUint32 idx ++ rest, ?_⟩, rfl⟩, pos + 8, idx,
    ⟨⟨rest, ?_⟩, rfl⟩, rfl, rfl⟩
  · rw [← hp, append_assoc]
  · rw [← drop_drop, ← hp, append_assoc]
    rfl

lemma decodeBlockHeader_returns : (decodeBlockHeader td pos).Returns := by
  have h₁ := deserialize32_returns td pos
  cases e₁ : deserializeUint32 td pos with
  | ok a =>
    have h₂ := deserialize32_returns td a.1
    cases e₂ : deserializeUint32 td a.1 with
    | ok b =>
      simp only [decodeBlockHeader, e₁, e₂, mapErr, ok_bind]
      exact returns_ok _
    | err e =>
      simp only [decodeBlockHeader, e₁, e₂, mapErr, ok_bind, err_bind]
      exact returns_err _
    | panic => exact absurd e₂ h₂.1
    | hang => exact absurd e₂ h₂.2
  | err e =>
    simp only [decodeBlockHeader, e₁, mapErr, err_bind]
    exact returns_err _
  | panic => exact absurd e₁ h₁.1
  | hang => exact absurd e₁ h₁.2

inductive BatchItem where
  | header (deltaTimestamp indexL1InfoTree : UInt32)
  | tx (it : TxItem)

namespace BatchItem

def bytes : BatchItem → List UInt8
  | header deltaTimestamp indexL1InfoTree => BlockItem.headerBytes deltaTimestamp indexL1InfoTree
  | tx it => it.bytes

def enabled (s : DecodeState) : BatchItem → Prop
  | header _ _ => True
  | tx _ => s.currentBlock ≠ none

def apply (geth : GoEthereum) (s : DecodeState) : BatchItem → DecodeState
  | header deltaTimestamp indexL1InfoTree =>
    ⟨s.pos + (BlockItem.headerBytes deltaTimestamp indexL1InfoTree).length,
      s.allBlocks, some ⟨deltaTimestamp, indexL1InfoTree, []⟩⟩
  | tx it =>
    ⟨s.pos + it.bytes.length, s.blocks, s.currentBlock.map fun block =>
      { block with transactions := block.transactions ++ [it.raw geth] }⟩

end BatchItem

open BatchItem

lemma header_prefix_iff (dt ili : UInt32) {data : List UInt8} {pos : ℕ} (hp : pos < data.length) :
    BlockItem.headerBytes dt ili <+: data.drop pos ↔ data[pos] = changeL2Block ∧
    serializeUint32 dt ++ serializeUint32 ili <+: data.drop (pos + 1) := by
  rw [drop_eq_getElem_cons hp, BlockItem.headerBytes, cons_prefix_cons, eq_comm]

lemma TxItem.bytes_eq_cons (it : TxItem) (hl : it.bytes.length < 2 ^ 63) :
    ∃ b tail, it.bytes = b :: tail ∧ b ≠ changeL2Block := by
  rw [it.length_bytes] at hl
  have hn : ∀ b : UInt8, 192 ≤ b.toNat → b ≠ changeL2Block := by
    rintro _ hb rfl
    exact absurd hb (by decide)
  rcases @Rlp.encodeList_cases it.fields (by omega) with
    ⟨_, b, hb, heq⟩ | ⟨_, b, len, _, _, hb, _, heq⟩
  · rw [TxItem.bytes, TxItem.body, heq]
    exact ⟨b, _, rfl, hn b (by omega)⟩
  · rw [TxItem.bytes, TxItem.body, heq]
    exact ⟨b, _, rfl, hn b (by omega)⟩

lemma TxItem.head_ne_changeL2Block (it : TxItem) (buf : GoBytes) {pos : ℕ}
    (hs : pos < buf.bytes.length) (hp : it.bytes <+: buf.bytes.drop pos) : buf.bytes[pos] ≠
    changeL2Block := by
  have hln := buf.length_lt
  have hl := hp.length_le
  rw [length_drop] at hl
  obtain ⟨b, tail, he, hn⟩ := it.bytes_eq_cons (by omega)
  rw [drop_eq_getElem_cons hs, he, cons_prefix_cons] at hp
  rw [← hp.1]
  exact hn

lemma batchBody_reads (geth : GoEthereum) (buf : GoBytes) : Reads buf.bytes DecodeState.pos
    (decodeBatchV2Body geth buf) bytes enabled (apply geth) where
  nonempty it := by
    cases it with
    | header _ _ => simp [bytes, BlockItem.headerBytes]
    | tx it => exact it.bytes_ne_nil
  pos_apply s it _ := by
    cases it with
    | _ => rfl
  step_iff s s' hpos := by
    have hi : (index buf.bytes s.pos : Outcome GoError UInt8) = .ok buf.bytes[s.pos] :=
      index_ok_iff.mpr (getElem?_eq_getElem hpos)
    simp only [decodeBatchV2Body, hi, ok_bind]
    by_cases hf : buf.bytes[s.pos] = changeL2Block
    · rw [if_pos hf]
      simp only [bind_ok_iff, mapErr_ok_iff, Prod.exists,
        decodeBlockHeader_ok_iff, ok.injEq, Next.next.injEq]
      constructor
      · rintro ⟨_, _, ⟨dt, idx, hp, rfl, rfl⟩, rfl⟩
        refine ⟨.header dt idx, trivial, (header_prefix_iff dt idx hpos).mpr ⟨hf, hp⟩, rfl⟩
      rintro ⟨it, _, hp, rfl⟩
      cases it with
      | header dt idx =>
        exact ⟨_, _, ⟨dt, idx, ((header_prefix_iff dt idx hpos).mp hp).2, rfl, rfl⟩, rfl⟩
      | tx it => exact absurd hf (it.head_ne_changeL2Block buf hpos hp)
    rw [if_neg hf]
    rcases hb : s.currentBlock with _ | blk
    · constructor
      · intro h
        cases hd : decodeTxRLP geth buf s.pos
        all_goals simp [hd] at h
      rintro ⟨it, he, hp, rfl⟩
      cases it with
      | header dt idx => exact absurd ((header_prefix_iff dt idx hpos).mp hp).1 hf
      | tx it => exact absurd hb he
    simp only [bind_ok_iff, mapErr_ok_iff, Prod.exists,
      decodeTxRLP_ok_iff geth buf hpos, ok.injEq, Next.next.injEq]
    constructor
    · rintro ⟨_, _, ⟨it, hp, rfl, rfl⟩, rfl⟩
      refine ⟨.tx it, by simp [enabled, hb], hp, ?_⟩
      simp [apply, hb]
    rintro ⟨it, _, hp, rfl⟩
    cases it with
    | header dt idx => exact absurd ((header_prefix_iff dt idx hpos).mp hp).1 hf
    | tx it =>
      refine ⟨_, _, ⟨it, hp, rfl, rfl⟩, ?_⟩
      simp [apply, hb]

def BlockItem.items (block : BlockItem) : List BatchItem :=
  .header block.deltaTimestamp block.indexL1InfoTree :: block.txs.map .tx

lemma BlockItem.flatMap_bytes (blk : BlockItem) :
    blk.items.flatMap BatchItem.bytes = blk.bytes := by
  simp [items, bytes, BatchItem.bytes, flatMap_map]

lemma flatMap_bytes (bs : List BlockItem) :
    (bs.flatMap BlockItem.items).flatMap bytes = batchBytes bs := by
  rw [flatMap_assoc, batchBytes]
  simp only [BlockItem.flatMap_bytes]

lemma exists_blocks (its : List BatchItem) : ∃ (txs : List TxItem) (bs : List BlockItem),
    its = txs.map .tx ++ bs.flatMap BlockItem.items := by
  induction its with
  | nil => exact ⟨[], [], rfl⟩
  | cons it its ih =>
    obtain ⟨txs, bs, rfl⟩ := ih
    cases it with
    | header dt idx => exact ⟨[], ⟨dt, idx, txs⟩ :: bs, rfl⟩
    | tx it => exact ⟨it :: txs, bs, rfl⟩

section
variable (geth : GoEthereum)

lemma foldl_apply_txs (txs : List TxItem) (pos : ℕ) (bs : List L2BlockRaw) (blk : L2BlockRaw) :
    ∃ pos', (txs.map tx).foldl (apply geth) ⟨pos, bs, some blk⟩ =
    ⟨pos', bs, some { blk with
    transactions := blk.transactions ++ txs.map (TxItem.raw geth) }⟩ := by
  induction txs generalizing pos blk with
  | nil => exact ⟨pos, by simp⟩
  | cons it txs ih =>
    obtain ⟨pos', h⟩ := ih (pos + it.bytes.length)
      { blk with transactions := blk.transactions ++ [it.raw geth] }
    refine ⟨pos', ?_⟩
    rw [map_cons, foldl_cons, apply, Option.map_some, h]
    simp

lemma allBlocks_foldl_items (blk : BlockItem) (s : DecodeState) :
    (blk.items.foldl (apply geth) s).allBlocks = s.allBlocks ++ [blk.raw geth] := by
  obtain ⟨pos', h⟩ := foldl_apply_txs geth blk.txs
    (s.pos + (BlockItem.headerBytes blk.deltaTimestamp blk.indexL1InfoTree).length)
    s.allBlocks ⟨blk.deltaTimestamp, blk.indexL1InfoTree, []⟩
  rw [BlockItem.items, foldl_cons, apply, h]
  rfl

variable (bs : List BlockItem)

lemma allBlocks_foldl_blocks (s : DecodeState) :
    ((bs.flatMap BlockItem.items).foldl (apply geth) s).allBlocks =
    s.allBlocks ++ bs.map (BlockItem.raw geth) := by
  induction bs generalizing s with
  | nil => simp
  | cons blk bs ih =>
    rw [flatMap_cons, foldl_append, ih, allBlocks_foldl_items]
    simp

lemma readable_txs (txs : List TxItem) (s : DecodeState) (hb : s.currentBlock ≠ none) :
    Readable enabled (apply geth) s (txs.map .tx) := by
  induction txs generalizing s with
  | nil => trivial
  | cons it txs ih =>
    refine ⟨hb, ih _ ?_⟩
    simpa [apply] using hb

lemma readable_blocks (s : DecodeState) :
    Readable enabled (apply geth) s (bs.flatMap BlockItem.items) := by
  induction bs generalizing s with
  | nil => trivial
  | cons blk bs ih =>
    rw [flatMap_cons, readable_append]
    refine ⟨⟨trivial, readable_txs geth blk.txs _ ?_⟩, ih _⟩
    simp [apply]

lemma readable_iff_blocks (its : List BatchItem) (s : DecodeState) (hb : s.currentBlock = none) :
    Readable enabled (apply geth) s its ↔
    ∃ bs : List BlockItem, its = bs.flatMap BlockItem.items := by
  constructor
  · intro hr
    obtain ⟨txs, bs, rfl⟩ := exists_blocks its
    cases txs with
    | nil => exact ⟨bs, rfl⟩
    | cons it txs => exact absurd hb hr.1
  · rintro ⟨bs, rfl⟩
    exact readable_blocks geth bs s
end

section
variable (geth : GoEthereum) (txsData td : GoBytes)

def DecodeState.start : DecodeState := ⟨0, [], none⟩

def DecodeReaches (s : DecodeState) : Prop :=
  Reaches (unread txsData.bytes DecodeState.pos) (decodeBatchV2Body geth txsData) .start s

lemma decodeReaches_iff (s : DecodeState) : DecodeReaches geth td s ↔ ∃ bs : List BlockItem,
    batchBytes bs <+: td.bytes ∧ s = (bs.flatMap BlockItem.items).foldl (apply geth) .start := by
  rw [DecodeReaches, reaches_iff (batchBody_reads geth td)]
  constructor
  · rintro ⟨its, hr, hp, rfl⟩
    obtain ⟨bs, rfl⟩ := (readable_iff_blocks geth its _ rfl).mp hr
    rw [flatMap_bytes] at hp
    exact ⟨bs, hp, rfl⟩
  rintro ⟨bs, hp, rfl⟩
  refine ⟨_, readable_blocks geth bs _, ?_, rfl⟩
  rw [flatMap_bytes]
  exact hp

lemma pos_foldl_blocks {bs : List BlockItem} (hp : batchBytes bs <+: td.bytes) :
    ((bs.flatMap BlockItem.items).foldl (apply geth) .start).pos = (batchBytes bs).length := by
  rw [← flatMap_bytes] at hp ⊢
  rw [pos_foldl (batchBody_reads geth td) hp]
  exact zero_add _

/-- How an iteration ends: it goes on or returns an error, or it panics at a
wrapped length. -/
lemma batchBody_cases {s : DecodeState} (hp : s.pos < td.bytes.length) :
    (¬WrappedLength td.bytes s.pos ∧ ((∃ s', decodeBatchV2Body geth td s = .ok (.next s')) ∨ ∃ e,
    decodeBatchV2Body geth td s = .err e)) ∨ (WrappedLength td.bytes s.pos ∧
    decodeBatchV2Body geth td s = .panic) := by
  have hg : td.bytes[s.pos]? = some td.bytes[s.pos] := getElem?_eq_getElem hp
  have hi : (index td.bytes s.pos : Outcome GoError UInt8) =
      .ok td.bytes[s.pos] := index_ok_iff.mpr hg
  simp only [decodeBatchV2Body, hi, ok_bind]
  by_cases hf : td.bytes[s.pos] = changeL2Block
  · rw [if_pos hf]
    refine .inl ⟨?_, ?_⟩
    · rintro ⟨hff, _⟩
      rw [hg, hf] at hff
      exact absurd hff (by decide)
    have hr := decodeBlockHeader_returns td (s.pos + 1)
    cases hh : decodeBlockHeader td (s.pos + 1) with
    | ok a => exact .inl ⟨_, rfl⟩
    | err e => exact .inr ⟨_, rfl⟩
    | panic => exact absurd hh hr.1
    | hang => exact absurd hh hr.2
  rw [if_neg hf]
  rcases decodeTxRLP_returns_or_panic geth td hp with
    ⟨hr, hno⟩ | ⟨hpan, hwrap⟩
  · refine .inl ⟨hno, ?_⟩
    cases hd : decodeTxRLP geth td s.pos with
    | ok a =>
      cases s.currentBlock with
      | none => exact .inr ⟨_, rfl⟩
      | some blk => exact .inl ⟨_, rfl⟩
    | err e =>
      cases s.currentBlock with
      | _ => exact .inr ⟨_, rfl⟩
    | panic => exact absurd hd hr.1
    | hang => exact absurd hd hr.2
  · refine .inr ⟨hwrap, ?_⟩
    cases s.currentBlock with
    | none => simp [hpan]
    | some blk => simp [hpan, mapErr]

lemma lt_of_unread {s : DecodeState} (h : unread td.bytes DecodeState.pos s = true) :
    s.pos < td.bytes.length := by
  simpa [unread] using h

lemma decodeBatchV2_ne_hang : decodeBatchV2 geth td ≠ .hang := by
  apply loop_ne_hang DecodeState.pos td.bytes.length
  · intro s hu
    exact lt_of_unread td hu
  · intro s s' hu hb
    exact advance (batchBody_reads geth td) hu hb
  · intro s hu
    rcases batchBody_cases geth td (lt_of_unread td hu) with
      ⟨_, ⟨_, h⟩ | ⟨_, h⟩⟩ | ⟨_, h⟩
    all_goals simp [h]
  · simp

/-- `DecodeBatchV2` accepts exactly the data made of whole blocks, and returns
these blocks. -/
lemma decodeBatchV2_ok_iff (batch : BatchRawV2) : decodeBatchV2 geth td = .ok batch ↔ ∃ bs : List
    BlockItem, td.bytes = batchBytes bs ∧ batch = ⟨bs.map (BlockItem.raw geth)⟩ := by
  rw [decodeBatchV2, loop_ok_iff (decodeBatchV2_ne_hang geth td)]
  constructor
  · rintro ⟨s, hr, ⟨hn, rfl⟩ | ⟨hu, hs⟩⟩
    · obtain ⟨its, hd, he, rfl⟩ := (reaches_end_iff (batchBody_reads geth td) _ _).mp ⟨hr, hn⟩
      obtain ⟨bs, rfl⟩ := (readable_iff_blocks geth its _ rfl).mp hd
      refine ⟨bs, ?_, ?_⟩
      · rw [← flatMap_bytes, he, drop_zero]
      · rw [allBlocks_foldl_blocks]
        rfl
    · rcases batchBody_cases geth td (lt_of_unread td hu) with ⟨_, ⟨_, h⟩ | ⟨_, h⟩⟩ | ⟨_, h⟩
      all_goals simp [h] at hs
  · rintro ⟨bs, he, rfl⟩
    obtain ⟨hr, hn⟩ := (reaches_end_iff (batchBody_reads geth td) .start _).mpr
      ⟨_, readable_blocks geth bs _, by rw [flatMap_bytes, ← he]; rfl, rfl⟩
    refine ⟨_, hr, .inl ⟨hn, ?_⟩⟩
    rw [allBlocks_foldl_blocks]
    rfl

lemma decodeV2_eq_panic_iff : decodeBatchV2 geth td = .panic ↔ ∃ bs : List BlockItem, batchBytes bs
    <+: td.bytes ∧ WrappedLength td.bytes (batchBytes bs).length := by
  rw [decodeBatchV2, loop_panic_iff (decodeBatchV2_ne_hang geth td)]
  constructor
  · rintro ⟨s, hr, hu, hn⟩
    have hs := lt_of_unread td hu
    obtain ⟨bs, hp, rfl⟩ := (decodeReaches_iff geth td s).mp hr
    refine ⟨bs, hp, ?_⟩
    rcases batchBody_cases geth td hs with
      ⟨_, ⟨_, h⟩ | ⟨_, h⟩⟩ | ⟨hw, _⟩
    · simp [hn] at h
    · simp [hn] at h
    · rwa [pos_foldl_blocks geth td hp] at hw
  rintro ⟨bs, hp, hw⟩
  have hr := (decodeReaches_iff geth td _).mpr ⟨bs, hp, rfl⟩
  rw [← pos_foldl_blocks geth td hp] at hw
  have hs := hw.2.1
  refine ⟨_, hr, decide_eq_true (by omega), ?_⟩
  rcases batchBody_cases geth td (lt_of_lt_of_le
      (Nat.lt_add_of_pos_right (by omega)) hs) with ⟨hno, _⟩ | ⟨_, h⟩
  · exact absurd hw hno
  · exact h
end

end EthdaNode.State
