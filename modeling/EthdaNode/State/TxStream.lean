import EthdaNode.State.Helper
import EthdaNode.State.TxFormat

/-!
# The transaction stream of `DecodeTxs`

`DecodeTxs` reads the transactions of `TxFormat` one after the other, with or
without the efficiency percentage. It never panics: the three checks of its
loop exclude every length that wraps around. At a list header whose length is
cut off by the end of the data it returns a nil error and no transactions.
-/

namespace EthdaNode.State

open Go Go.Outcome BigEndian List UInt64 TxItem StreamReader Rlp Nat

variable (forkID : UInt64)

def percentageLength : ℕ :=
  if forkID ≥ forkIdDragonfruit then 1 else 0

lemma pctLength_le : percentageLength forkID ≤ 1 := by
  rw [percentageLength]
  split <;> omega

variable (it : TxItem)

/-- The percentage of a transaction as the stream of a fork carries it. -/
def TxItem.percentage : List UInt8 := [it.efficiencyPercentage].take (percentageLength forkID)

def TxItem.streamBytes : List UInt8 := it.body ++ it.percentage forkID

lemma TxItem.length_pct : (it.percentage forkID).length = percentageLength forkID := by
  have := pctLength_le forkID
  rw [percentage, length_take, length_singleton]
  omega

lemma TxItem.length_streamBytes : (it.streamBytes forkID).length =
    (encodeList it.fields).length + 65 + percentageLength forkID := by
  rw [streamBytes, length_append, it.length_body, it.length_pct]

lemma TxItem.streamBytes_ne_nil : it.streamBytes forkID ≠ [] := by
  intro h
  have hl := it.length_streamBytes forkID
  rw [h, length_nil] at hl
  omega

/-- A list header at `offset` whose length is cut off by the end of the data. -/
def TruncatedLength (data : List UInt8) (offset : ℕ) : Prop :=
  ∃ b : UInt8, data[offset]? = some b ∧ 247 < b.toNat ∧ data.length < offset + 1 + (b.toNat - 247)

lemma TruncatedLength.lt_length {d : List UInt8} {off : ℕ}
    (h : TruncatedLength d off) : off < d.length := by
  obtain ⟨b, hb, _⟩ := h
  exact (List.getElem?_eq_some_iff.mp hb).1

/-! ## The length of a list -/

lemma parseUint_singleton (b : UInt8) :
    HexText.parseUint (HexText.encodeToString [b]) = .ok b.toUInt64 := by
  rw [HexText.parseUint_encode (by simp) (by simp), ofBytes_singleton]
  congr 1
  exact UInt64.toNat_inj.mp (by simp)

section
variable (d : GoBytes) {pos : UInt64} {b : UInt8}

lemma decodeTxsLength_short (hm : 192 ≤ b.toNat) (hx : b.toNat ≤ 247) :
    decodeTxsLength d pos b.toUInt64 = .ok (some (UInt64.ofNat (b.toNat - 192))) := by
  have hs := shortRlp_lt_iff hm
  simp only [decodeTxsLength, hs, if_neg (show ¬247 < b.toNat by omega)]
  rw [ok.injEq, Option.some.injEq, ← UInt64.toNat_inj, toNat_sub_c0 hm,
    UInt64.toNat_ofNat', Nat.mod_eq_of_lt (by omega)]

lemma toNat_lengthEnd (hp : pos.toNat < 2 ^ 63) (hl : 247 < b.toNat) :
    (pos + 1 + b.toUInt64 - f7).toNat = pos.toNat + 1 + (b.toNat - 247) := by
  have hb := b.toNat_lt
  rw [UInt64.toNat_sub, UInt64.toNat_add, UInt64.toNat_add]
  simp [f7]
  omega

lemma decodeTxsLength_truncated (hl : 247 < b.toNat) (hp : pos.toNat < 2 ^ 63)
    (ht : d.bytes.length < pos.toNat + 1 + (b.toNat - 247)) :
    decodeTxsLength d pos b.toUInt64 = .ok none := by
  have he := d.length_lt
  have hg : pos + 1 + b.toUInt64 - f7 > ofNat d.bytes.length := by
    rw [gt_iff_lt, lt_iff_toNat_lt, toNat_lengthEnd hp hl, toNat_ofNat', mod_eq_of_lt (by omega)]
    exact ht
  simp only [decodeTxsLength, shortRlp_lt_iff (show 192 ≤ b.toNat by omega),
    if_pos hl, if_pos hg]

/-- The length of a long list. One that wraps around is refused, or is shorter than the length
bytes. -/
lemma decodeTxsLength_long (hln : 247 < b.toNat)
    (hf : pos.toNat + 1 + (b.toNat - 247) ≤ d.bytes.length) :
    (ofBytes (lengthBytes d.bytes pos.toNat (b.toNat - 247)) + b.toNat < 2 ^ 64 ∧
    decodeTxsLength d pos b.toUInt64 = .ok (some (ofNat
    (ofBytes (lengthBytes d.bytes pos.toNat (b.toNat - 247)) + (b.toNat - 247))))) ∨
    (2 ^ 64 ≤ ofBytes (lengthBytes d.bytes pos.toNat (b.toNat - 247)) + b.toNat ∧
    (decodeTxsLength d pos b.toUInt64 = .err .errInvalidData ∨
    ∃ length, decodeTxsLength d pos b.toUInt64 = .ok (some length) ∧ length.toNat < 8)) := by
  have he := d.length_lt
  have hb := b.toNat_lt
  have ho : (pos + 1).toNat = pos.toNat + 1 := by
    rw [UInt64.toNat_add]
    simp
    omega
  have hh := @toNat_lengthEnd pos b (by omega) hln
  have hg : ¬(pos + 1 + b.toUInt64 - f7 > ofNat d.bytes.length) := by
    rw [gt_iff_lt, lt_iff_toNat_lt, hh, toNat_ofNat', mod_eq_of_lt (by omega)]
    omega
  have hp := parseUint_lengthBytes hf (by omega) (by omega)
  have hn : ofBytes (lengthBytes d.bytes pos.toNat (b.toNat - 247)) <
      256 ^ (b.toNat - 247) := ofBytes_lengthBytes_lt hf
  have hsh := shortRlp_lt_iff (show 192 ≤ b.toNat by omega)
  simp only [decodeTxsLength, hsh, if_pos hln, if_neg hg, ho, hh]
  rw [slice_lengthBytes hf]
  simp only [ok_bind, hp, ofExcept_ok]
  generalize ofBytes (lengthBytes d.bytes pos.toNat (b.toNat - 247)) = n at *
  have hn64 : n < 2 ^ 64 := by
    calc n < 256 ^ (b.toNat - 247) := hn
      _ ≤ 256 ^ 8 := Nat.pow_le_pow_right (by norm_num) (by omega)
      _ = 2 ^ 64 := by norm_num
  have hf7 : f7.toNat = 247 := rfl
  have hs : (ofNat n + b.toUInt64).toNat = (n + b.toNat) % 2 ^ 64 := by
    rw [UInt64.toNat_add, UInt64.toNat_ofNat', Nat.mod_eq_of_lt hn64, UInt8.toNat_toUInt64]
  by_cases hw : n + b.toNat < 2 ^ 64
  · refine .inl ⟨hw, ?_⟩
    rw [if_neg, ok.injEq, Option.some.injEq, ← UInt64.toNat_inj,
      UInt64.toNat_sub_of_le, hs, hf7, UInt64.toNat_ofNat']
    · omega
    · rw [le_iff_toNat_le, hs, hf7]
      omega
    · rw [lt_iff_toNat_lt, hs, hf7]
      omega
  · refine .inr ⟨by omega, ?_⟩
    by_cases hl : ofNat n + b.toUInt64 < f7
    · exact .inl (if_pos hl)
    refine .inr ⟨_, if_neg hl, ?_⟩
    rw [UInt64.toNat_sub_of_le _ _ (by simpa using hl), hs, hf7]
    omega

lemma decodeTxsLength_cases (hb : d.bytes[pos.toNat]? = some b) (hm : 192 ≤ b.toNat) :
    (TruncatedLength d.bytes pos.toNat ∧ decodeTxsLength d pos b.toUInt64 = .ok none) ∨
    (¬TruncatedLength d.bytes pos.toNat ∧ ((∃ e, decodeTxsLength d pos b.toUInt64 = .err e) ∨
    ∃ length, decodeTxsLength d pos b.toUInt64 = .ok (some length) ∧
    length.toNat < 2 ^ 64 - 247)) := by
  have he := d.length_lt
  have hlt := (List.getElem?_eq_some_iff.mp hb).1
  have hb256 := b.toNat_lt
  have ht : TruncatedLength d.bytes pos.toNat ↔
      247 < b.toNat ∧ d.bytes.length < pos.toNat + 1 + (b.toNat - 247) := by
    rw [TruncatedLength, hb]
    simp
  rw [ht]
  by_cases hl : 247 < b.toNat
  · by_cases hc : d.bytes.length < pos.toNat + 1 + (b.toNat - 247)
    · exact .inl ⟨⟨hl, hc⟩, decodeTxsLength_truncated d hl (by omega) hc⟩
    refine .inr ⟨by omega, ?_⟩
    rcases @decodeTxsLength_long d pos b hl (by omega) with
      ⟨hwrap, hok⟩ | ⟨_, herr | ⟨length, hok, hsmall⟩⟩
    · refine .inr ⟨_, hok, ?_⟩
      rw [toNat_ofNat']
      omega
    · exact .inl ⟨_, herr⟩
    · exact .inr ⟨length, hok, by omega⟩
  · refine .inr ⟨by omega, .inr ⟨_, decodeTxsLength_short d hm (by omega), ?_⟩⟩
    rw [toNat_ofNat']
    omega

lemma decodeTxsLength_encodeList {fields : List (List UInt8)} {tail : List UInt8}
    (h : d.bytes.drop pos.toNat = encodeList fields ++ tail) : ∃ b, d.bytes[pos.toNat]? = some b ∧
    192 ≤ b.toNat ∧ ∃ length, decodeTxsLength d pos b.toUInt64 = .ok (some length) ∧
    length.toNat + 1 = (encodeList fields).length := by
  have hn := d.length_lt
  have ht : (encodeList fields).length + tail.length = d.bytes.length - pos.toNat := by
    have hl := congrArg length h
    simpa using hl.symm
  rcases @encodeList_cases fields (by omega) with
    ⟨hshort, b, hb, heq⟩ | ⟨hlong, b, len, hpos, hle, hb, hof, heq⟩
  · refine ⟨b, getElem?_of_drop h heq, by omega, _,
      decodeTxsLength_short d (by omega) (by omega), ?_⟩
    rw [heq, length_cons, toNat_ofNat', mod_eq_of_lt (by omega)]
    omega
  have hl : (encodeList fields).length = len.length + (payload fields).length + 1 := by
    simp [heq]
  have hk : b.toNat - 247 = len.length := by omega
  have hy : lengthBytes d.bytes pos.toNat (b.toNat - 247) = len := by
    rw [hk, lengthBytes, ← drop_drop, h, heq]
    simp
  have hc := @decodeTxsLength_long d pos b (by omega) (by omega)
  rw [hy, hof] at hc
  rcases hc with ⟨_, ho⟩ | ⟨hw, _⟩
  · refine ⟨b, getElem?_of_drop h heq, by omega, _, ho, ?_⟩
    rw [toNat_ofNat', mod_eq_of_lt (by omega)]
    omega
  · omega
end

section
variable (geth : GoEthereum) (d : GoBytes) (forkID : UInt64) {s : DecodeTxsState} {b : UInt8}

lemma txsBody_eq (hb : d.bytes[s.pos.toNat]? = some b) :
    decodeTxsBody geth d forkID s =
    if b.toNat < 192 then .err .errInvalidData
    else decodeTxsLength d s.pos b.toUInt64 >>= decodeTxsAt geth d forkID s := by
  have hn := d.length_lt
  have hl := (List.getElem?_eq_some_iff.mp hb).1
  have he : (s.pos + 1).toNat = s.pos.toNat + 1 := by
    rw [UInt64.toNat_add]
    simp
    omega
  have hs : (slice d.bytes s.pos.toNat (s.pos.toNat + 1) :
      Outcome GoError (List UInt8)) = .ok [b] := by
    refine slice_of_drop (a := []) (c := d.bytes.drop (s.pos.toNat + 1)) ?_ hl.le rfl rfl
    rw [drop_eq_getElem_cons hl, (List.getElem?_eq_some_iff.mp hb).2]
    rfl
  simp only [decodeTxsBody, he, hs, ok_bind, parseUint_singleton, ofExcept_ok, lt_c0_iff]

lemma toNat_endPosTxs (pos length : UInt64) : (if forkID ≥ forkIdDragonfruit then
    pos + length + rLength + sLength + vLength + headerByteLength +
    efficiencyPercentageByteLength
    else pos + length + rLength + sLength + vLength + headerByteLength).toNat =
    (pos.toNat + length.toNat + 66 + percentageLength forkID) % 2 ^ 64 := by
  rw [percentageLength]
  split
  · simp only [UInt64.toNat_add, rLength, sLength, vLength, headerByteLength,
      efficiencyPercentageByteLength]
    simp
  · simp only [UInt64.toNat_add, rLength, sLength, vLength, headerByteLength]
    simp

variable {length : UInt64}

/-- A transaction that does not fit is refused: with the lengths that
`decodeTxsLength` lets through, an end position that wraps around is smaller
than the position. -/
lemma decodeTxsAt_eq_err (hg : length.toNat < 2 ^ 64 - 247) (hp : s.pos.toNat < d.bytes.length)
    (hed : d.bytes.length < s.pos.toNat + length.toNat + 66 + percentageLength forkID) :
    decodeTxsAt geth d forkID s (some length) = .err .errInvalidData := by
  have hn := d.length_lt
  have he := toNat_endPosTxs forkID s.pos length
  have hl := pctLength_le forkID
  unfold decodeTxsAt
  simp only
  generalize (if forkID ≥ forkIdDragonfruit then
    s.pos + length + rLength + sLength + vLength + headerByteLength + efficiencyPercentageByteLength
    else s.pos + length + rLength + sLength + vLength + headerByteLength) = endPos at he ⊢
  have hd : (ofNat d.bytes.length).toNat = d.bytes.length := by
    rw [toNat_ofNat']
    omega
  by_cases hb : endPos > ofNat d.bytes.length
  · rw [if_pos hb]
  rw [if_neg hb, if_pos]
  rw [gt_iff_lt, lt_iff_toNat_lt, hd] at hb
  rw [lt_iff_toNat_lt]
  omega

lemma endPos_accepted (d : GoBytes) {pos : UInt64} {endPos : ℕ} (hp : pos.toNat ≤ endPos)
    (he : endPos ≤ d.bytes.length) : (ofNat endPos).toNat = endPos ∧
    ¬(ofNat endPos > ofNat d.bytes.length) ∧ ¬(ofNat endPos < pos) := by
  have hl := d.length_lt
  have hn : (ofNat endPos).toNat = endPos := by
    rw [toNat_ofNat', mod_eq_of_lt (by omega)]
  refine ⟨hn, ?_, ?_⟩
  · rw [gt_iff_lt, lt_iff_toNat_lt, hn, toNat_ofNat', mod_eq_of_lt (by omega)]
    omega
  · rw [lt_iff_toNat_lt, hn]
    omega

variable {post : List UInt8}

lemma decodeTxsAt_of_split {info r sig : List UInt8}
    {v : UInt8} (hp : s.pos.toNat ≤ d.bytes.length)
    (hs : d.bytes.drop s.pos.toNat = info ++ (r ++ (sig ++ (v :: post))))
    (hin : info.length = length.toNat + 1)
    (hr : r.length = 32) (hg : sig.length = 32)
    (hpo : percentageLength forkID ≤ post.length) :
    decodeTxsAt geth d forkID s (some length) =
    ofExcept (fun _ => .errInvalidData) (geth.decodeBytes info) >>= fun fields =>
    rlpFieldsToLegacyTx geth fields [v] r sig >>= fun tx =>
    .ok (.next ⟨ofNat (s.pos.toNat + length.toNat + 66 +
    percentageLength forkID), s.txs ++ [tx],
    s.efficiencyPercentages ++ post.take (percentageLength forkID)⟩) := by
  have hl := d.length_lt
  have ht : s.pos.toNat + info.length + 65 + post.length = d.bytes.length := by
    have h := congrArg List.length hs
    simp [hr, hg] at h
    omega
  have hd : (if forkID ≥ forkIdDragonfruit then
      s.pos + length + rLength + sLength + vLength + headerByteLength +
      efficiencyPercentageByteLength
      else s.pos + length + rLength + sLength + vLength + headerByteLength) =
      ofNat (s.pos.toNat + length.toNat + 66 + percentageLength forkID) := by
    rw [← UInt64.toNat_inj, toNat_endPosTxs, UInt64.toNat_ofNat']
  obtain ⟨hn, hgr, hu⟩ := endPos_accepted d
    (show s.pos.toNat ≤ s.pos.toNat + length.toNat + 66 + percentageLength forkID by
      omega) (by omega)
  have hst : (s.pos + length + headerByteLength).toNat = s.pos.toNat + info.length := by
    rw [UInt64.toNat_add, UInt64.toNat_add]
    simp [headerByteLength]
    omega
  obtain ⟨hrE, hE, hv⟩ := toNat_sigEnds hst (by omega)
  obtain ⟨hI, hc, hsl, hsc⟩ := slices_of_split hp hs hr hg
  have hfl : (slice d.bytes s.pos.toNat (s.pos.toNat + length.toNat + 66 +
      percentageLength forkID) : Outcome GoError (List UInt8)) =
      .ok (info ++ (r ++ (sig ++ (v :: post.take (percentageLength forkID))))) := by
    apply slice_of_drop (a := []) (c := post.drop (percentageLength forkID)) _ hp
    · simp
    · simp [hr, hg]
      omega
    · simp [hs]
  unfold decodeTxsAt
  simp only [hd, if_neg hgr, if_neg hu, hn, hst, hrE, hE, hv, hfl, hI, hc, hsl, hsc, ok_bind]
  by_cases hf : forkID ≥ forkIdDragonfruit
  · have ho : percentageLength forkID = 1 := if_pos hf
    rw [ho] at hpo ⊢
    obtain ⟨p, post, rfl⟩ := exists_cons_of_length_pos hpo
    have he : (slice d.bytes (s.pos.toNat + info.length + 65)
        (s.pos.toNat + length.toNat + 66 + 1) : Outcome GoError (List UInt8)) = .ok [p] := by
      apply slice_of_drop (a := info ++ (r ++ (sig ++ [v]))) (c := post) _ hp
      · simp [hr, hg]
        omega
      · simp
        omega
      · simp [hs]
    have hi : (index [p] 0 : Outcome GoError UInt8) = .ok p := rfl
    simp only [if_pos hf, he, hi, ok_bind, take_succ_cons, take_zero]
  · have hz : percentageLength forkID = 0 := if_neg hf
    simp only [hz, if_neg hf, take_zero, append_nil]

def TxItem.applyTxs (geth : GoEthereum) (forkID : UInt64) (s : DecodeTxsState)
    (it : TxItem) : DecodeTxsState :=
  ⟨s.pos + ofNat (it.streamBytes forkID).length, s.txs ++ [it.tx geth],
    s.efficiencyPercentages ++ it.percentage forkID⟩

lemma txsBody_of_prefix {it : TxItem} (hps : s.pos.toNat < d.bytes.length)
    (hp : it.streamBytes forkID <+: d.bytes.drop s.pos.toNat) :
    decodeTxsBody geth d forkID s = .ok (.next (it.applyTxs geth forkID s)) := by
  have hlen := d.length_lt
  have he := hp.length_le
  rw [it.length_streamBytes, length_drop] at he
  obtain ⟨rest, hr⟩ := hp
  have hs : d.bytes.drop s.pos.toNat = encodeList it.fields ++
      (it.r ++ (it.s ++ (it.v :: (it.percentage forkID ++ rest)))) := by
    rw [← hr]
    simp [streamBytes, body]
  obtain ⟨b, hb, hm, length, hln, hl⟩ := decodeTxsLength_encodeList d hs
  have hd : geth.decodeBytes (encodeList it.fields) = .ok it.fields :=
    (geth.decodeBytes_eq_ok_iff _ _ (by omega)).mpr rfl
  have ht : (it.percentage forkID ++ rest).take (percentageLength forkID) =
      it.percentage forkID := by
    rw [← it.length_pct forkID, take_left]
  rw [txsBody_eq geth d forkID hb, if_neg (by omega), hln,
    ok_bind, decodeTxsAt_of_split geth d forkID hps.le hs hl.symm
      it.r_length it.s_length (by simp [it.length_pct]), hd, ofExcept_ok,
    ok_bind]
  have hn : ofNat (s.pos.toNat + length.toNat + 66 + percentageLength forkID) =
      s.pos + ofNat (it.streamBytes forkID).length := by
    rw [← UInt64.toNat_inj, UInt64.toNat_add, UInt64.toNat_ofNat',
      UInt64.toNat_ofNat', it.length_streamBytes]
    omega
  simp only [it.legacyTx_eq geth, ok_bind, ht, hn, applyTxs]

lemma take_headD {k : ℕ} (hk : k ≤ 1) (hp : k ≤ post.length) :
    [post.headD 0].take k = post.take k := by
  rcases post with _ | ⟨p, post⟩
  · rw [length_nil, le_zero] at hp
    simp [hp]
  rcases le_one_iff_eq_zero_or_eq_one.mp hk with rfl | rfl
  · rfl
  · rfl

/-- An iteration with a length that is let through returns an error, or it
reads a transaction. -/
lemma decodeTxsAt_cases (hn : length.toNat < 2 ^ 64 - 247) (hps : s.pos.toNat < d.bytes.length) :
    (∃ e, decodeTxsAt geth d forkID s (some length) = .err e) ∨ ∃ it : TxItem,
    it.streamBytes forkID <+: d.bytes.drop s.pos.toNat := by
  have hle := d.length_lt
  by_cases he : d.bytes.length < s.pos.toNat + length.toNat + 66 + percentageLength forkID
  · exact .inl ⟨_, decodeTxsAt_eq_err geth d forkID hn hps he⟩
  obtain ⟨info, r, sig, v, post, hs, hif, hr, hg, hp⟩ :=
    @exists_split d.bytes s.pos.toNat (s.pos.toNat + (length.toNat + 1))
      (percentageLength forkID) (by omega) (by omega)
  rw [decodeTxsAt_of_split geth d forkID hps.le hs (by omega) hr hg hp]
  have hi : info.length < 2 ^ 63 := by omega
  rcases hd : geth.decodeBytes info with text | fields
  · exact .inl ⟨_, rfl⟩
  have hl := (geth.decodeBytes_eq_ok_iff info fields hi).mp hd
  by_cases hf : 6 ≤ fields.length
  · refine .inr ⟨⟨fields, r, sig, v, post.headD 0, hf, hr, hg⟩, post.drop (percentageLength forkID),
      ?_⟩
    have ht := take_headD (pctLength_le forkID) hp
    rw [hs, hl]
    simp only [streamBytes, body, percentage, ht]
    simp
  · exact .inl ⟨.errTxTypeNotSupported,
      by rw [ofExcept_ok, ok_bind, legacyTx_eq_err geth hf, err_bind]⟩

/-- At a length that is cut off `DecodeTxs` returns, otherwise there is an error or a transaction is
read. -/
lemma txsBody_cases (hp : s.pos.toNat < d.bytes.length) : (TruncatedLength d.bytes s.pos.toNat ∧
    decodeTxsBody geth d forkID s = .ok (.stop ⟨[], d.bytes, []⟩)) ∨
    (¬TruncatedLength d.bytes s.pos.toNat ∧ ((∃ e, decodeTxsBody geth d forkID s = .err e) ∨
    ∃ it : TxItem, it.streamBytes forkID <+: d.bytes.drop s.pos.toNat ∧
    decodeTxsBody geth d forkID s = .ok (.next (it.applyTxs geth forkID s)))) := by
  have hb := getElem?_eq_getElem hp
  by_cases hm : d.bytes[s.pos.toNat].toNat < 192
  · refine .inr ⟨?_, .inl ⟨.errInvalidData, ?_⟩⟩
    · rintro ⟨b, hg, hl, _⟩
      rw [hb, Option.some.injEq] at hg
      rw [hg] at hm
      omega
    · rw [txsBody_eq geth d forkID hb, if_pos hm]
  have hd := txsBody_eq geth d forkID hb
  rw [if_neg hm] at hd
  rcases decodeTxsLength_cases d hb (by omega) with
    ⟨htrunc, hnone⟩ | ⟨htrunc, ⟨e, herr⟩ | ⟨length, hsome, hlen⟩⟩
  · rw [hnone, ok_bind] at hd
    exact .inl ⟨htrunc, hd⟩
  · rw [herr, err_bind] at hd
    exact .inr ⟨htrunc, .inl ⟨e, hd⟩⟩
  rw [hsome, ok_bind] at hd
  rcases decodeTxsAt_cases geth d forkID hlen hp with
    ⟨e, herr⟩ | ⟨it, hpre⟩
  · exact .inr ⟨htrunc, .inl ⟨e, hd.trans herr⟩⟩
  · exact .inr ⟨htrunc, .inr ⟨it, hpre, txsBody_of_prefix geth d forkID hp hpre⟩⟩
end

section
variable (geth : GoEthereum) (d : GoBytes) (forkID : UInt64)

lemma txsBody_reads : Reads d.bytes (fun s => s.pos.toNat)
    (decodeTxsBody geth d forkID) (TxItem.streamBytes forkID)
    (fun _ _ => True) (TxItem.applyTxs geth forkID) where
  nonempty it := it.streamBytes_ne_nil forkID
  pos_apply s it hp := by
    have hln := d.length_lt
    have hl := hp.length_le
    rw [length_drop] at hl
    have hne := length_pos_of_ne_nil (it.streamBytes_ne_nil forkID)
    rw [TxItem.applyTxs, UInt64.toNat_add, UInt64.toNat_ofNat']
    omega
  step_iff s s' hps := by
    constructor
    · intro hb
      rcases txsBody_cases geth d forkID hps with
        ⟨_, hs⟩ | ⟨_, ⟨e, he⟩ | ⟨it, hp, hn⟩⟩
      · simp [hb] at hs
      · simp [hb] at he
      · rw [hb, ok.injEq, Next.next.injEq] at hn
        exact ⟨it, trivial, hp, hn⟩
    · rintro ⟨it, _, hp, rfl⟩
      exact txsBody_of_prefix geth d forkID hps hp

variable (its : List TxItem)

lemma readable_stream (s : DecodeTxsState) : Readable (fun _ _ => True) (applyTxs geth forkID) s
    its := by
  induction its generalizing s with
  | nil => trivial
  | cons it its ih => exact ⟨trivial, ih _⟩

lemma foldl_applyTxs (s : DecodeTxsState) : (its.foldl (TxItem.applyTxs geth forkID) s).txs =
    s.txs ++ its.map (TxItem.tx geth) ∧
    (its.foldl (TxItem.applyTxs geth forkID) s).efficiencyPercentages =
    s.efficiencyPercentages ++ its.flatMap (TxItem.percentage forkID) := by
  induction its generalizing s with
  | nil => simp
  | cons it its ih =>
    obtain ⟨ht, hp⟩ := ih (it.applyTxs geth forkID s)
    rw [foldl_cons, ht, hp]
    simp [TxItem.applyTxs]

lemma lt_of_unreadTxs {s : DecodeTxsState}
    (h : unread d.bytes (fun s : DecodeTxsState => s.pos.toNat)
    s = true) : s.pos.toNat < d.bytes.length := by
  simpa [unread] using h

lemma decodeTxs_ne_hang : decodeTxs geth d forkID ≠ .hang := by
  apply loop_ne_hang (fun s => s.pos.toNat) d.bytes.length
  · intro s hu
    exact lt_of_unreadTxs d hu
  · intro s s' hu hb
    exact advance (txsBody_reads geth d forkID) hu hb
  · intro s hu
    rcases txsBody_cases geth d forkID (lt_of_unreadTxs d hu) with
      ⟨_, h⟩ | ⟨_, ⟨_, h⟩ | ⟨_, _, h⟩⟩
    all_goals simp [h]
  · simp

lemma decodeTxs_ne_panic : decodeTxs geth d forkID ≠ .panic := by
  rw [decodeTxs, ne_eq, loop_panic_iff (decodeTxs_ne_hang geth d forkID)]
  rintro ⟨s, _, hu, hp⟩
  rcases txsBody_cases geth d forkID (lt_of_unreadTxs d hu) with
    ⟨_, h⟩ | ⟨_, ⟨_, h⟩ | ⟨_, _, h⟩⟩
  all_goals simp [h] at hp

/-- The bytes of a sequence of transactions in the stream of a fork. -/
def streamOf : List UInt8 := its.flatMap (TxItem.streamBytes forkID)

lemma pos_foldl_stream {its : List TxItem} (hp : streamOf forkID its <+: d.bytes) :
    (its.foldl (TxItem.applyTxs geth forkID) ⟨0, [], []⟩).pos.toNat =
    (streamOf forkID its).length := by
  have hs := pos_foldl (s := ⟨0, [], []⟩) (txsBody_reads geth d forkID) hp
  exact hs.trans (zero_add _)

/-- What `DecodeTxs` returns with a nil error: the transactions, if the data is
a sequence of them, and nothing at all, if a sequence of transactions is
followed by a length that is cut off. -/
lemma decodeTxs_ok_iff (decoded : DecodedTxs) : decodeTxs geth d forkID = .ok decoded ↔ (∃ its :
    List TxItem, d.bytes = streamOf forkID its ∧ decoded = ⟨its.map (TxItem.tx geth), d.bytes,
    its.flatMap (TxItem.percentage forkID)⟩) ∨ ((∃ its :
    List TxItem, streamOf forkID its <+: d.bytes ∧
    TruncatedLength d.bytes (streamOf forkID its).length) ∧ decoded = ⟨[], d.bytes, []⟩) := by
  have hd := txsBody_reads geth d forkID
  rw [decodeTxs, loop_ok_iff (decodeTxs_ne_hang geth d forkID)]
  constructor
  · rintro ⟨s, hr, ⟨hn, rfl⟩ | ⟨hu, hs⟩⟩
    · obtain ⟨its, _, hq, rfl⟩ := (reaches_end_iff hd _ _).mp ⟨hr, hn⟩
      obtain ⟨ht, he⟩ := foldl_applyTxs geth forkID its ⟨0, [], []⟩
      refine .inl ⟨its, hq.symm, ?_⟩
      rw [ht, he]
      rfl
    obtain ⟨its, _, hp, rfl⟩ := (reaches_iff hd _ _).mp hr
    have hps := pos_foldl_stream geth d forkID hp
    rcases txsBody_cases geth d forkID (lt_of_unreadTxs d hu) with
      ⟨htrunc, h⟩ | ⟨_, ⟨_, h⟩ | ⟨_, _, h⟩⟩
    · rw [hps] at htrunc
      rw [h, ok.injEq, Next.stop.injEq] at hs
      exact .inr ⟨⟨its, hp, htrunc⟩, hs.symm⟩
    · simp [h] at hs
    · simp [h] at hs
  rintro (⟨its, hq, rfl⟩ | ⟨⟨its, hp, htrunc⟩, rfl⟩)
  · obtain ⟨hr, hn⟩ := (reaches_end_iff hd
      ⟨0, [], []⟩ _).mpr ⟨its, readable_stream geth forkID its _, hq.symm, rfl⟩
    obtain ⟨ht, he⟩ := foldl_applyTxs geth forkID its ⟨0, [], []⟩
    refine ⟨_, hr, .inl ⟨hn, ?_⟩⟩
    rw [ht, he]
    rfl
  have hr := (reaches_iff hd ⟨0, [], []⟩ _).mpr ⟨its, readable_stream geth forkID its _, hp, rfl⟩
  rw [← pos_foldl_stream geth d forkID hp] at htrunc
  have hl := htrunc.lt_length
  refine ⟨_, hr, .inr ⟨decide_eq_true hl, ?_⟩⟩
  rcases txsBody_cases geth d forkID hl with
    ⟨_, h⟩ | ⟨hno, _⟩
  · exact h
  · exact absurd htrunc hno
end

end EthdaNode.State
