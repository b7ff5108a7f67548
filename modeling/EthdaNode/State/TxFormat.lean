import EthdaNode.State.EncodingBatchV2

/-!
# A transaction in batch data

The format of one transaction, `TxItem`, stated without reference to a decoder,
and the relation of `decodeTxRLP` to it: the decoder succeeds at a position
exactly if a transaction is encoded there, and it panics exactly at the list
headers whose length wraps around so far that the check of the end position
does not notice (`WrappedLength`).
-/

namespace EthdaNode.State

open Go Go.Outcome BigEndian List UInt64 Rlp Nat

/-- One transaction of batch data: an RLP list of at least six strings, the 32 bytes of `R` and of
`S`, the byte `V` and the percentage. -/
@[ext]
structure TxItem where
  fields : List (List UInt8)
  r : List UInt8
  s : List UInt8
  v : UInt8
  efficiencyPercentage : UInt8
  fields_length : 6 ≤ fields.length
  r_length : r.length = 32
  s_length : s.length = 32

namespace TxItem

variable (it : TxItem)

def body : List UInt8 := encodeList it.fields ++ (it.r ++ (it.s ++ [it.v]))

def bytes : List UInt8 := it.body ++ [it.efficiencyPercentage]

def tx (geth : GoEthereum) (it : TxItem) : LegacyTx :=
  match rlpFieldsToLegacyTx geth it.fields [it.v] it.r it.s with
  | .ok tx => tx
  | _ => default

def raw (geth : GoEthereum) (it : TxItem) : L2TxRaw := ⟨it.tx geth, it.efficiencyPercentage⟩

lemma length_body : it.body.length = (encodeList it.fields).length + 65 := by
  simp [body, it.r_length, it.s_length]

lemma length_bytes : it.bytes.length = (encodeList it.fields).length + 66 := by
  simp [bytes, length_body]

lemma bytes_ne_nil : it.bytes ≠ [] := by simp [bytes]

end TxItem

variable {fs : List (List UInt8)} (geth : GoEthereum)

lemma legacyTx_ok (hf : 6 ≤ fs.length) (v r s : List UInt8) :
    ∃ tx, rlpFieldsToLegacyTx geth fs v r s = .ok tx := by
  match fs, hf with
  | _ :: _ :: _ :: _ :: _ :: _ :: _, _ => exact ⟨_, rfl⟩

lemma legacyTx_eq_err (hf : ¬6 ≤ fs.length) (v r s : List UInt8) :
    rlpFieldsToLegacyTx geth fs v r s = .err .errTxTypeNotSupported := by
  match fs, hf with
  | [], _ => rfl
  | [_], _ => rfl
  | [_, _], _ => rfl
  | [_, _, _], _ => rfl
  | [_, _, _, _], _ => rfl
  | [_, _, _, _, _], _ => rfl
  | _ :: _ :: _ :: _ :: _ :: _ :: _, h => simp at h

lemma TxItem.legacyTx_eq (it : TxItem) :
    rlpFieldsToLegacyTx geth it.fields [it.v] it.r it.s = .ok (it.tx geth) := by
  obtain ⟨tx, h⟩ := legacyTx_ok geth it.fields_length [it.v] it.r it.s
  rw [TxItem.tx, h]

/-! ## The length of an RLP list -/

variable {b : UInt8}

lemma toNat_sub_c0 (hb : 192 ≤ b.toNat) : (b.toUInt64 - c0).toNat = b.toNat - 192 := by
  rw [UInt64.toNat_sub_of_le]
  · simp [c0]
  · simpa [le_iff_toNat_le, c0] using hb

lemma toNat_sub_f7 (hb : 247 ≤ b.toNat) : (b.toUInt64 - f7).toNat = b.toNat - 247 := by
  rw [UInt64.toNat_sub_of_le]
  · simp [f7]
  · simpa [le_iff_toNat_le, f7] using hb

lemma lt_c0_iff (b : UInt8) : b.toUInt64 < c0 ↔ b.toNat < 192 := by
  simp [lt_iff_toNat_lt, c0]

lemma shortRlp_lt_iff (hb : 192 ≤ b.toNat) : b.toUInt64 - c0 > shortRlp ↔ 247 < b.toNat := by
  rw [gt_iff_lt, lt_iff_toNat_lt, toNat_sub_c0 hb]
  simp [shortRlp]
  omega

def lengthBytes (data : List UInt8) (offset k : ℕ) : List UInt8 := (data.drop (offset + 1)).take k

variable {d : List UInt8} {o k : ℕ}

section
variable (h : o + 1 + k ≤ d.length)
include h

lemma slice_lengthBytes : (slice d (o + 1) (o + 1 + k) : Outcome GoError (List UInt8)) = .ok
    (lengthBytes d o k) := by
  rw [slice_ok_iff]
  refine ⟨⟨by omega, h⟩, ?_⟩
  rw [drop_take, Nat.add_sub_cancel_left, lengthBytes]

lemma length_lengthBytes : (lengthBytes d o k).length = k := by
  rw [lengthBytes, length_take, length_drop]
  omega

lemma parseUint_lengthBytes (hp : 1 ≤ k) (he : k ≤ 8) : HexText.parseUint
    (HexText.encodeToString (lengthBytes d o k)) = .ok (ofNat (ofBytes (lengthBytes d o k))) := by
  have hl := length_lengthBytes h
  apply HexText.parseUint_encode
  · intro hn
    rw [hn] at hl
    simp at hl
    omega
  · omega

lemma ofBytes_lengthBytes_lt : ofBytes (lengthBytes d o k) < 256 ^ k := by
  have hl := ofBytes_lt (lengthBytes d o k)
  rwa [length_lengthBytes h] at hl
end

variable (buf : GoBytes)

/-- What `decodeRLPListLengthFromOffset` does, by the class of the first byte:
no list, a short list, a long list whose length is cut off, a long list. -/
lemma rlpLength_cases (hb : buf.bytes[o]? = some b) : (b.toNat < 192 ∧ ∃ e,
    decodeRLPListLengthFromOffset buf o = .err e) ∨ (192 ≤ b.toNat ∧ b.toNat ≤ 247 ∧
    decodeRLPListLengthFromOffset buf o = .ok (ofNat (b.toNat - 191))) ∨ (247 < b.toNat ∧
    buf.bytes.length < o + 1 + (b.toNat - 247) ∧ ∃ e, decodeRLPListLengthFromOffset buf o =
    .err e) ∨ (247 < b.toNat ∧ o + 1 + (b.toNat - 247) ≤ buf.bytes.length ∧
    decodeRLPListLengthFromOffset buf o =
    .ok (ofNat (ofBytes (lengthBytes buf.bytes o (b.toNat - 247)) + (b.toNat - 247) + 1))) := by
  have hlt := (List.getElem?_eq_some_iff.mp hb).1
  have he := buf.length_lt
  have hb256 := b.toNat_lt
  have hi : (index buf.bytes o : Outcome GoError UInt8) = .ok b := index_ok_iff.mpr hb
  by_cases hs : b.toNat < 192
  · refine .inl ⟨hs, ?_⟩
    simp [decodeRLPListLengthFromOffset, hi, (lt_c0_iff b).mpr hs]
  have hh := shortRlp_lt_iff (b := b) (by omega)
  by_cases hl : 247 < b.toNat
  · have hg : ofNat o + headerByteLength + (b.toUInt64 - f7) > ofNat buf.bytes.length ↔
        buf.bytes.length < o + 1 + (b.toNat - 247) := by
      rw [gt_iff_lt, UInt64.lt_iff_toNat_lt, UInt64.toNat_add, UInt64.toNat_add,
        toNat_sub_f7 (by omega)]
      simp [headerByteLength]
      omega
    by_cases ht : buf.bytes.length < o + 1 + (b.toNat - 247)
    · refine .inr (.inr (.inl ⟨hl, ht, ?_⟩))
      simp [decodeRLPListLengthFromOffset, hi, lt_c0_iff, hs, hh.mpr hl, hg.mpr ht]
    refine .inr (.inr (.inr ⟨hl, by omega, ?_⟩))
    have ho : (ofNat o + 1).toNat = o + 1 := by
      rw [UInt64.toNat_add]
      simp
      omega
    have hhi : (ofNat o + 1 + (b.toUInt64 - f7)).toNat = o + 1 + (b.toNat - 247) := by
      rw [UInt64.toNat_add, ho, toNat_sub_f7 (by omega)]
      omega
    have hf : o + 1 + (b.toNat - 247) ≤ buf.bytes.length := by omega
    have hp := parseUint_lengthBytes hf (by omega) (by omega)
    unfold decodeRLPListLengthFromOffset
    simp only [hi, ok_bind, lt_c0_iff, if_neg hs, hh, if_pos hl, hg, if_neg ht, ho, hhi]
    rw [slice_lengthBytes hf]
    simp only [ok_bind, hp, ofExcept_ok, ok.injEq]
    rw [← UInt64.toNat_inj, UInt64.toNat_add, UInt64.toNat_sub, UInt64.toNat_add]
    simp [f7, headerByteLength]
    omega
  · refine .inr (.inl ⟨by omega, by omega, ?_⟩)
    simp only [decodeRLPListLengthFromOffset, hi, ok_bind, lt_c0_iff,
      if_neg hs, hh, if_neg hl, ok.injEq]
    rw [← UInt64.toNat_inj, UInt64.toNat_add, toNat_sub_c0 (by omega)]
    simp [headerByteLength]
    omega

/-! ## `decodeTxRLP` -/

lemma exists_split {d : List UInt8} {off dataStart k : ℕ} (hs : off ≤ dataStart)
    (he : dataStart + 65 + k ≤ d.length) : ∃ info r s v post, d.drop off = info ++
    (r ++ (s ++ (v :: post))) ∧ off + info.length = dataStart ∧ r.length = 32 ∧ s.length = 32 ∧ k ≤
    post.length := by
  have hv : (d.drop (dataStart + 64)) ≠ [] := by
    intro h
    have := drop_eq_nil_iff.mp h
    omega
  obtain ⟨v, post, hp⟩ := exists_cons_of_ne_nil hv
  refine ⟨(d.drop off).take (dataStart - off), (d.drop dataStart).take 32, (d.drop (dataStart +
    32)).take 32, v, post, ?_, ?_, ?_, ?_, ?_⟩
  · have h₁ : (d.drop off).drop (dataStart - off) = d.drop dataStart := by
      rw [drop_drop]
      congr 1
      omega
    have h₂ : (d.drop dataStart).drop 32 = d.drop (dataStart + 32) := drop_drop
    have h₃ : (d.drop (dataStart + 32)).drop 32 = v :: post := by rw [drop_drop, ← hp]
    rw [← h₃, take_append_drop, ← h₂, take_append_drop, ← h₁, take_append_drop]
  · simp
    omega
  · simp
    omega
  · simp
    omega
  have hl := congrArg List.length hp
  simp at hl
  omega

variable {post : List UInt8}

lemma slices_of_split {info r s : List UInt8} {v : UInt8} (ho : o ≤ d.length) (hp : d.drop o =
    info ++ (r ++ (s ++ (v :: post)))) (hr : r.length = 32) (hs : s.length = 32) :
    (slice d o (o + info.length) : Outcome GoError (List UInt8)) = .ok info ∧
    (slice d (o + info.length) (o + info.length + 32) : Outcome GoError (List UInt8)) = .ok r ∧
    (slice d (o + info.length + 32) (o + info.length + 64) : Outcome GoError (List UInt8)) = .ok s ∧
    (slice d (o + info.length + 64) (o + info.length + 65) :
    Outcome GoError (List UInt8)) = .ok [v] := by
  refine ⟨?_, ?_, ?_, ?_⟩
  · exact slice_of_drop (a := []) hp ho (by simp) rfl
  · exact slice_of_drop hp ho rfl (by omega)
  · apply slice_of_drop (a := info ++ r) (c := v :: post) _ ho
    · simp [hr]
      omega
    · omega
    · simp [hp]
  apply slice_of_drop (a := info ++ (r ++ s)) (c := post) _ ho
  · simp [hr, hs]
    omega
  · simp
  · simp [hp]

lemma toNat_sigEnds {start : UInt64} (ht : start.toNat = k) (hk : k + 65 < 2 ^ 64) :
    (start + rLength).toNat = k + 32 ∧ (start + rLength + sLength).toNat = k + 64 ∧
    (start + rLength + sLength + vLength).toNat = k + 65 := by
  have hr : (start + rLength).toNat = k + 32 := by
    rw [UInt64.toNat_add, ht]
    exact Nat.mod_eq_of_lt (show k + 32 < 2 ^ 64 by omega)
  have hs : (start + rLength + sLength).toNat = k + 64 := by
    rw [UInt64.toNat_add, hr]
    exact Nat.mod_eq_of_lt (show k + 64 < 2 ^ 64 by omega)
  have hv : (start + rLength + sLength + vLength).toNat = k + 65 := by
    rw [UInt64.toNat_add, hs]
    exact Nat.mod_eq_of_lt hk
  exact ⟨hr, hs, hv⟩

variable {ln : UInt64}

lemma decodeTxRLP_of_split {info r s : List UInt8} {v p : UInt8} (ho : o ≤ buf.bytes.length)
    (hp : buf.bytes.drop o = info ++ (r ++ (s ++ (v :: p :: post)))) (hr : r.length = 32)
    (hs : s.length = 32) (hn : decodeRLPListLengthFromOffset buf o = .ok ln)
    (hin : (o + ln.toNat) % 2 ^ 64 = o + info.length) : decodeTxRLP geth buf o = ofExcept .rlp
    (geth.decodeBytes info) >>= fun fs => rlpFieldsToLegacyTx geth fs [v] r s >>= fun tx => .ok
    (o + info.length + 66, ⟨tx, p⟩) := by
  have hle := buf.length_lt
  have ht : o + info.length + 66 + post.length = buf.bytes.length := by
    have h := congrArg List.length hp
    simp [hr, hs] at h
    omega
  have hst : (ofNat o + ln).toNat = o + info.length := by
    rw [UInt64.toNat_add]
    simp
    omega
  obtain ⟨hrE, hE, hv⟩ := toNat_sigEnds hst (by omega)
  have he : (ofNat o + ln + rLength + sLength + vLength +
      efficiencyPercentageByteLength).toNat = o + info.length + 66 := by
    rw [UInt64.toNat_add, hv]
    exact Nat.mod_eq_of_lt (show o + info.length + 66 < 2 ^ 64 by omega)
  have hg : ¬(ofNat o + ln + rLength + sLength + vLength +
      efficiencyPercentageByteLength > ofNat buf.bytes.length) := by
    rw [gt_iff_lt, lt_iff_toNat_lt, he]
    simp
    omega
  have hf : (slice buf.bytes o (o + info.length + 66) :
      Outcome GoError (List UInt8)) = .ok (info ++ (r ++ (s ++ [v, p]))) := by
    apply slice_of_drop (a := []) (c := post) _ ho
    · simp
    · simp [hr, hs]
      omega
    · simp [hp]
  obtain ⟨hc, hsl, hsc, hl⟩ := slices_of_split ho hp hr hs
  have hi : (index buf.bytes (o + info.length + 65) : Outcome GoError UInt8) = .ok p := by
    apply index_of_drop (a := info ++ (r ++ (s ++ [v]))) (c := post) _ ho
    · simp [hr, hs]
      omega
    · simp [hp]
  unfold decodeTxRLP
  simp only [hn, mapErr, ok_bind, if_neg hg, he, hst, hrE, hE, hv, hf, hc, hsl, hsc, hl, hi]

lemma toNat_endPos (off : ℕ) (ln : UInt64) :
    (ofNat off + ln + rLength + sLength + vLength +
    efficiencyPercentageByteLength).toNat = (off + ln.toNat + 66) % 2 ^ 64 := by
  simp only [UInt64.toNat_add, rLength, sLength, vLength, efficiencyPercentageByteLength]
  simp

/-- After the check of the end position, `decodeTxRLP` panics or its slices are
in bounds. -/
lemma decodeTxRLP_cases (hl : decodeRLPListLengthFromOffset buf o = .ok ln) :
    (buf.bytes.length < (o + ln.toNat + 66) % 2 ^ 64 ∧ ∃ e, decodeTxRLP geth buf o = .err e) ∨
    ((o + ln.toNat + 66) % 2 ^ 64 ≤ buf.bytes.length ∧ ((o + ln.toNat) % 2 ^ 64 < o ∨
    buf.bytes.length < (o + ln.toNat) % 2 ^ 64) ∧ decodeTxRLP geth buf o = .panic) ∨
    (o ≤ (o + ln.toNat) % 2 ^ 64 ∧ (o + ln.toNat) % 2 ^ 64 + 66 ≤ buf.bytes.length) := by
  have hle := buf.length_lt
  have hd := toNat_endPos o ln
  have hs : (ofNat o + ln).toNat = (o + ln.toNat) % 2 ^ 64 := by
    rw [UInt64.toNat_add]
    simp
  have hg : ofNat o + ln + rLength + sLength + vLength + efficiencyPercentageByteLength > ofNat
      buf.bytes.length ↔ buf.bytes.length < (o + ln.toNat + 66) % 2 ^ 64 := by
    rw [gt_iff_lt, lt_iff_toNat_lt, hd]
    simp
    omega
  by_cases he : buf.bytes.length < (o + ln.toNat + 66) % 2 ^ 64
  · refine .inl ⟨he, ?_⟩
    simp [decodeTxRLP, hl, mapErr, hg.mpr he]
  by_cases ho : (o + ln.toNat) % 2 ^ 64 < o ∨ buf.bytes.length < (o + ln.toNat) % 2 ^ 64
  · refine .inr (.inl ⟨by omega, ho, ?_⟩)
    have hi : (slice buf.bytes o ((o + ln.toNat) % 2 ^ 64) :
        Outcome GoError (List UInt8)) = .panic := slice_panic_iff.mpr ho
    unfold decodeTxRLP
    simp only [hl, mapErr, ok_bind, hg, if_neg he, hs, hi, panic_bind]
    rcases slice_cases buf.bytes o (ofNat o + ln + rLength + sLength + vLength +
        efficiencyPercentageByteLength).toNat with ⟨full, h⟩ | h
    · rw [h, ok_bind]
    · rw [h, panic_bind]
  · refine .inr (.inr ⟨by omega, by omega⟩)

lemma getElem?_of_drop {l tail : List UInt8} {b : UInt8} {rest : List UInt8}
    (h : d.drop o = l ++ tail) (he : l = b :: rest) : d[o]? = some b := by
  rw [he] at h
  have hg := congrArg (fun l => l[0]?) h
  simpa using hg

lemma rlpLength_encodeList {tail : List UInt8} (h : buf.bytes.drop o = encodeList fs ++ tail) :
    decodeRLPListLengthFromOffset buf o = .ok (ofNat (encodeList fs).length) := by
  have hn := buf.length_lt
  have ht : (encodeList fs).length + tail.length = buf.bytes.length - o := by
    have hl := congrArg List.length h
    simpa using hl.symm
  rcases @encodeList_cases fs (by omega) with
    ⟨hshort, b, hb, heq⟩ | ⟨hlong, b, len, hpos, hle, hb, hof, heq⟩
  · have hl : (encodeList fs).length = (payload fs).length + 1 := by
      simp [heq]
    rcases rlpLength_cases buf (getElem?_of_drop h heq) with
      ⟨hlt, _⟩ | ⟨_, _, hok⟩ | ⟨hgt, _⟩ | ⟨hgt, _⟩
    · omega
    · have hs : b.toNat - 191 = (payload fs).length + 1 := by
        omega
      rw [hok, hl, hs]
    · omega
    · omega
  have hl : (encodeList fs).length = len.length + (payload fs).length + 1 := by
    simp [heq]
  have hy : lengthBytes buf.bytes o len.length = len := by
    rw [lengthBytes, ← drop_drop, h, heq]
    simp
  have hk : b.toNat - 247 = len.length := by omega
  rcases rlpLength_cases buf (getElem?_of_drop h heq) with
    ⟨hlt, _⟩ | ⟨_, hle', _⟩ | ⟨_, htrunc, _⟩ | ⟨_, _, hok⟩
  · omega
  · omega
  · omega
  · rw [hok, hl, hk, hy, hof, add_comm (payload fs).length len.length]

/-- `decodeTxRLP` succeeds exactly where a transaction is encoded. -/
lemma decodeTxRLP_ok_iff (ho : o < buf.bytes.length) (pos : ℕ) (tx : L2TxRaw) : decodeTxRLP geth buf
    o = .ok (pos, tx) ↔ ∃ it : TxItem, it.bytes <+: buf.bytes.drop o ∧ pos = o + it.bytes.length ∧
    tx = it.raw geth := by
  have hle := buf.length_lt
  constructor
  · intro h
    have hl : ∃ ln, decodeRLPListLengthFromOffset buf o = .ok ln := by
      rw [decodeTxRLP] at h
      obtain ⟨ln, hl, _⟩ := ok_of_bind h
      exact ⟨ln, mapErr_ok_iff.mp hl⟩
    obtain ⟨ln, hl⟩ := hl
    rcases decodeTxRLP_cases geth buf hl with
      ⟨_, e, her⟩ | ⟨_, _, hn⟩ | ⟨hstart, hend⟩
    · rw [h] at her
      cases her
    · rw [h] at hn
      cases hn
    obtain ⟨info, r, s, v, post, hp, hi, hr, hs, hps⟩ := exists_split (k := 1) hstart (by omega)
    obtain ⟨p, post, rfl⟩ := exists_cons_of_ne_nil (length_pos_iff.mp hps)
    rw [decodeTxRLP_of_split geth buf ho.le hp hr hs hl hi.symm] at h
    obtain ⟨fs, hd, h⟩ := ok_of_bind h
    obtain ⟨ltx, hlt, h⟩ := ok_of_bind h
    have hf : 6 ≤ fs.length := by
      by_contra hless
      rw [legacyTx_eq_err geth hless] at hlt
      cases hlt
    have he : info = encodeList fs :=
      (geth.decodeBytes_eq_ok_iff info fs (by omega)).mp (ofExcept_ok_iff.mp hd)
    rw [ok.injEq, Prod.mk.injEq] at h
    obtain ⟨rfl, rfl⟩ := h
    refine ⟨⟨fs, r, s, v, p, hf, hr, hs⟩, ?_, ?_, ?_⟩
    · refine ⟨post, ?_⟩
      rw [hp, he]
      simp [TxItem.bytes, TxItem.body]
    · rw [TxItem.length_bytes, ← he]
      omega
    · simp [TxItem.raw, TxItem.tx, hlt]
  · rintro ⟨it, ⟨post, hpr⟩, rfl, rfl⟩
    have hp : buf.bytes.drop o = encodeList it.fields ++
        (it.r ++ (it.s ++ (it.v :: it.efficiencyPercentage :: post))) := by
      rw [← hpr]
      simp [TxItem.bytes, TxItem.body]
    have ht := congrArg List.length hpr
    rw [length_append, it.length_bytes, length_drop] at ht
    have hl := rlpLength_encodeList buf hp
    rw [decodeTxRLP_of_split geth buf ho.le hp it.r_length it.s_length hl (by simp; omega)]
    rw [(geth.decodeBytes_eq_ok_iff _ it.fields (by omega)).mpr rfl, ofExcept_ok, ok_bind,
      it.legacyTx_eq geth, ok_bind, it.length_bytes, add_assoc, TxItem.raw]

/-- A list header makes `decodeTxRLP` panic: `0xff` is followed by a length `n` that wraps the end
position around to one inside the data, but not so far that `R` would start behind the header again.
-/
def WrappedLength (data : List UInt8) (offset : ℕ) : Prop :=
  data[offset]? = some 0xff ∧ offset + 9 ≤ data.length ∧
    2 ^ 64 ≤ offset + ofBytes (lengthBytes data offset 8) + 75 ∧
    offset + ofBytes (lengthBytes data offset 8) + 75 ≤ 2 ^ 64 + data.length ∧
    ofBytes (lengthBytes data offset 8) + 9 < 2 ^ 64

instance (data : List UInt8) (offset : ℕ) : Decidable (WrappedLength data offset) :=
  inferInstanceAs (Decidable (_ ∧ _ ∧ _ ∧ _ ∧ _))

lemma legacyTx_returns (fs : List (List UInt8)) (v r s : List UInt8) :
    (rlpFieldsToLegacyTx geth fs v r s).Returns := by
  by_cases h : 6 ≤ fs.length
  · obtain ⟨tx, ht⟩ := legacyTx_ok geth h v r s
    rw [ht]
    exact returns_ok tx
  · rw [legacyTx_eq_err geth h]
    exact returns_err _

lemma decodeTxRLP_returns_of_bounds (ho : o < buf.bytes.length)
    (hl : decodeRLPListLengthFromOffset buf o = .ok ln) (ht : o ≤ (o + ln.toNat) % 2 ^ 64)
    (he : (o + ln.toNat) % 2 ^ 64 + 66 ≤ buf.bytes.length) : (decodeTxRLP geth buf o).Returns := by
  obtain ⟨info, r, s, v, post, hsp, hi, hr, hs, hp⟩ := exists_split (k := 1) ht (by omega)
  obtain ⟨p, post, rfl⟩ := exists_cons_of_ne_nil (length_pos_iff.mp hp)
  rw [decodeTxRLP_of_split geth buf ho.le hsp hr hs hl hi.symm]
  refine (returns_ofExcept _ _).bind fun fs _ => ?_
  refine (legacyTx_returns geth fs [v] r s).bind fun tx _ => ?_
  exact returns_ok _

/-- For a list of at most `2 ^ 56 + 8` bytes the end position does not wrap. -/
lemma decodeTxRLP_returns_of_small (ho : o < buf.bytes.length)
    (hl : decodeRLPListLengthFromOffset buf o = .ok ln) (hs : ln.toNat ≤ 2 ^ 56 + 8) :
    (decodeTxRLP geth buf o).Returns := by
  have he := buf.length_lt
  rcases decodeTxRLP_cases geth buf hl with
    ⟨_, e, herr⟩ | ⟨hle, hout, _⟩ | ⟨hstart, hend⟩
  · rw [herr]
    exact returns_err e
  · omega
  · exact decodeTxRLP_returns_of_bounds geth buf ho hl hstart hend

lemma decodeTxRLP_err_of_length {e : GoError} (h : decodeRLPListLengthFromOffset buf o = .err e) :
    ∃ e', decodeTxRLP geth buf o = .err e' := by
  simp [decodeTxRLP, h, mapErr]

lemma decodeTxRLP_returns_or_panic (ho : o < buf.bytes.length) :
    ((decodeTxRLP geth buf o).Returns ∧ ¬WrappedLength buf.bytes o) ∨
    (decodeTxRLP geth buf o = .panic ∧ WrappedLength buf.bytes o) := by
  have hln := buf.length_lt
  have hb : buf.bytes[o]? = some buf.bytes[o] := List.getElem?_eq_getElem ho
  generalize hy : buf.bytes[o] = b at hb
  have hf : ∀ h : WrappedLength buf.bytes o, b.toNat = 255 := by
    intro h
    have he := h.1
    rw [hb, Option.some.injEq] at he
    simp [he]
  rcases rlpLength_cases buf hb with
    ⟨hl, e, herr⟩ | ⟨_, hle, hok⟩ | ⟨_, htrunc, e, herr⟩ | ⟨hlong, hfit, hok⟩
  · obtain ⟨e', he'⟩ := decodeTxRLP_err_of_length geth buf herr
    refine .inl ⟨by rw [he']; exact returns_err e', ?_⟩
    intro h
    have := hf h
    omega
  · refine .inl ⟨decodeTxRLP_returns_of_small geth buf ho hok (by simp; omega), ?_⟩
    intro h
    have := hf h
    omega
  · obtain ⟨e', he'⟩ := decodeTxRLP_err_of_length geth buf herr
    refine .inl ⟨by rw [he']; exact returns_err e', ?_⟩
    intro h
    have := hf h
    have := h.2.1
    omega
  have hbn := ofBytes_lengthBytes_lt hfit
  by_cases hb255 : b.toNat = 255
  · -- Only the eight ln bytes of `0xff` can make the end position wrap.
    have hbf : b = 0xff := UInt8.toNat_inj.mp hb255
    simp only [hb255] at hfit hok hbn
    norm_num at hfit hok hbn
    rcases decodeTxRLP_cases geth buf hok with
      ⟨hl, e, herr⟩ | ⟨hle, hout, hpan⟩ | ⟨hs, hn⟩
    · refine .inl ⟨by rw [herr]; exact returns_err e, ?_⟩
      rintro ⟨_, _, h₁, h₂, h₃⟩
      simp at hl
      omega
    · refine .inr ⟨hpan, by rw [hb, hbf], by omega, ?_, ?_, ?_⟩
      · simp at hle hout
        omega
      · simp at hle hout
        omega
      · simp at hle hout
        omega
    · refine .inl ⟨decodeTxRLP_returns_of_bounds geth buf ho hok hs hn, ?_⟩
      rintro ⟨_, _, h₁, h₂, h₃⟩
      simp at hs hn
      omega
  · have hp : 256 ^ (b.toNat - 247) ≤ 256 ^ 7 := by
      apply Nat.pow_le_pow_right (by norm_num)
      have := b.toNat_lt
      omega
    have hb256 := b.toNat_lt
    norm_num at hp
    refine .inl ⟨decodeTxRLP_returns_of_small geth buf ho hok (by simp; omega), ?_⟩
    intro h
    exact hb255 (hf h)

lemma decodeTxRLP_panic_iff (ho : o < buf.bytes.length) :
    decodeTxRLP geth buf o = .panic ↔ WrappedLength buf.bytes o := by
  rcases decodeTxRLP_returns_or_panic geth buf ho with
    ⟨hret, hno⟩ | ⟨hpan, hwrap⟩
  · exact ⟨fun h => absurd h hret.1, fun h => absurd h hno⟩
  · exact ⟨fun _ => hwrap, fun _ => hpan⟩

end EthdaNode.State
