import EthdaNode.Support.GoRuntime
import EthdaNode.Support.HexText
import EthdaNode.Support.Rlp

/-!
# Legacy transactions and their batch encoding

The transaction of a batch (`types.LegacyTx`), the serialisation that
`prepareRPLTxData` writes into batch data and its inverse
`RlpFieldsToLegacyTx`. Numbers of type `*big.Int` are natural numbers: every
value of a transaction is an unsigned quantity.

What the code uses of go-ethereum is a parameter, `GoEthereum`. Its laws are
the documented behaviour the code relies on: package `rlp` writes and accepts
exactly canonical RLP, and `ChainId` is the chain id of EIP-155.
-/

namespace EthdaNode.State

open Go BigEndian HexText

structure Address where
  bytes : List UInt8
  length_eq : bytes.length = 20
  deriving DecidableEq

def Address.zero : Address := ⟨List.replicate 20 0, rfl⟩

lemma zeros32 : (List.replicate 32 (0 : UInt8)).length = 32 := rfl

structure LegacyTx where
  nonce : UInt64
  gasPrice : ℕ
  gas : UInt64
  toAddr : Option Address
  value : ℕ
  data : List UInt8
  v : ℕ
  r : ℕ
  s : ℕ
  deriving DecidableEq, Inhabited

/-- The errors of the codec: values of package `state`, those of the packages it calls, and
`fmt.Errorf("<text>%w", err)`. -/
inductive GoError where
  | errBatchV2DontStartWithChangeL2Block
  | errInvalidBatchV2
  | errInvalidRLP
  | errInvalidData
  | errTxTypeNotSupported
  | hex (e : DecodeError)
  | parseUint (e : NumError)
  | rlp (text : String)
  | wrap (text : String) (e : GoError)
  deriving DecidableEq, Repr

/-- The values the code passes to `rlp.EncodeToBytes`. -/
inductive RlpValue where
  | uint (n : ℕ)
  | address (toAddr : Option Address)
  | bytes (bs : List UInt8)

/-- The byte string that stands for a value: integers without leading zeros,
a nil address as the empty string. -/
def RlpValue.content : RlpValue → List UInt8
  | .uint n => toBytes n
  | .address none => []
  | .address (some a) => a.bytes
  | .bytes bs => bs

@[simp] lemma RlpValue.content_uint (n : ℕ) : (RlpValue.uint n).content = toBytes n := rfl

@[simp] lemma RlpValue.content_bytes (bs : List UInt8) : (RlpValue.bytes bs).content = bs := rfl

/-- What the codec uses of go-ethereum. -/
structure GoEthereum where
  encodeToBytes : List RlpValue → Except String (List UInt8)
  decodeBytes : List UInt8 → Except String (List (List UInt8))
  bytesToAddress : List UInt8 → Address
  chainId : ℕ → ℕ
  encodeToBytes_eq : ∀ vals, encodeToBytes vals = .ok (Rlp.encodeList (vals.map RlpValue.content))
  decodeBytes_eq_ok_iff : ∀ (data : List UInt8) (fields : List (List UInt8)), data.length < 2 ^ 63 →
      (decodeBytes data = .ok fields ↔ data = Rlp.encodeList fields)
  bytesToAddress_bytes : ∀ a : Address, bytesToAddress a.bytes = a
  chainId_unprotected : chainId 27 = 0 ∧ chainId 28 = 0
  chainId_protected : ∀ c, chainId (2 * c + 35) = c ∧ chainId (2 * c + 36) = c

/-- `common.BytesToAddress`: the last 20 bytes, padded with zeros on the left. -/
def cropAddress (bs : List UInt8) : Address where
  bytes := (bs.drop (bs.length - 20)).leftpad 20 0
  length_eq := by
    rw [List.length_leftpad, List.length_drop]
    omega

def deriveChainId (v : ℕ) : ℕ :=
  if v < 2 ^ 64 then
    if v = 27 ∨ v = 28 then 0 else ((v + 2 ^ 64 - 35) % 2 ^ 64) / 2
  else (v - 35) / 2

lemma deriveChainId_protected (c : ℕ) :
    deriveChainId (2 * c + 35) = c ∧ deriveChainId (2 * c + 36) = c := by
  unfold deriveChainId
  constructor
  · split
    · rw [if_neg (by omega)]
      omega
    · omega
  split
  · rw [if_neg (by omega)]
    omega
  · omega

def GoEthereum.reference : GoEthereum where
  encodeToBytes vals := .ok (Rlp.encodeList (vals.map RlpValue.content))
  decodeBytes data :=
    match Rlp.decodeList data with
    | some fields => .ok fields
    | none => .error "rlp: invalid input"
  bytesToAddress := cropAddress
  chainId := deriveChainId
  encodeToBytes_eq _ := rfl
  decodeBytes_eq_ok_iff data fields hlen := by
    rw [← Rlp.decodeList_some_iff (by omega)]
    cases Rlp.decodeList data with
    | _ => simp
  bytesToAddress_bytes a := by
    obtain ⟨bytes, hlen⟩ := a
    simp [cropAddress, List.leftpad, hlen]
  chainId_unprotected := by decide
  chainId_protected := deriveChainId_protected

def double : ℕ := 2
def ether155V : ℕ := 27
def etherPre155V : ℕ := 35

variable (geth : GoEthereum)

def rlpFieldsToLegacyTx (fields : List (List UInt8)) (v r s : List UInt8) :
    Outcome GoError LegacyTx :=
  match fields with
  | nonce :: gasPrice :: gas :: toAddr :: value :: data :: rest =>
    let txV :=
      match rest with
      | [] => ofBytes v
      | chainID :: _ =>
        -- (v - 27) + (chainID * 2 + 35), which is never negative
        ofBytes chainID * double + etherPre155V + ofBytes v - ether155V
    .ok
      { nonce := UInt64.ofNat (ofBytes nonce)
        gasPrice := ofBytes gasPrice
        gas := UInt64.ofNat (ofBytes gas)
        toAddr :=
          if toAddr.length ≠ 0 then some (geth.bytesToAddress toAddr) else none
        value := ofBytes value
        data := data
        v := txV
        r := ofBytes r
        s := ofBytes s }
  | _ => .err .errTxTypeNotSupported

/-! ## Writing -/

variable (tx : LegacyTx)

def isPreEIP155Tx : Bool :=
  UInt64.ofNat (geth.chainId tx.v) == 0 && (UInt64.ofNat tx.v == 27 || UInt64.ofNat tx.v == 28)

def rlpFieldsToEncode : List RlpValue :=
  let fields := [.uint tx.nonce.toNat, .uint tx.gasPrice, .uint tx.gas.toNat,
    .address tx.toAddr, .uint tx.value, .bytes tx.data]
  if !isPreEIP155Tx geth tx then
    fields ++ [.uint (geth.chainId tx.v), .uint 0, .uint 0]
  else fields

def prepareRPLTxData : Outcome GoError (List UInt8) := do
  let sign : UInt64 := 1 - (UInt64.ofNat tx.v &&& 1)
  let txCodedRlp ← Outcome.ofExcept .rlp (geth.encodeToBytes (rlpFieldsToEncode geth tx))
  let newV := ether155V + sign.toNat
  let newRPadded := padZero 64 (text tx.r)
  let newSPadded := padZero 64 (text tx.s)
  let newVPadded := padZero 2 (text newV)
  Outcome.ofExcept .hex (decodeString (encodeToString txCodedRlp ++
    newRPadded ++ newSPadded ++ newVPadded))

/-- The signature of a legacy transaction: `V` is 27 or 28, or protected by EIP-155, and `R` and `S`
have at most 256 bits. -/
structure LegacyTx.Signed (tx : LegacyTx) : Prop where
  v_cases : tx.v = 27 ∨ tx.v = 28 ∨ ∃ c, tx.v = 2 * c + 35 ∨ tx.v = 2 * c + 36
  r_lt : tx.r < 2 ^ 256
  s_lt : tx.s < 2 ^ 256

/-- The `V` byte of a transaction in batch data. -/
def vByte : UInt8 :=
  if tx.v % 2 = 1 then 27 else 28

lemma sign_toNat (v : ℕ) :
    (1 - (UInt64.ofNat v &&& 1) : UInt64).toNat = if v % 2 = 1 then 0 else 1 := by
  have ha : (UInt64.ofNat v &&& 1).toNat = v % 2 := by
    rw [UInt64.toNat_and, UInt64.toNat_ofNat', UInt64.toNat_one, Nat.and_one_is_mod]
    omega
  have hl : (UInt64.ofNat v &&& 1) ≤ 1 := by
    rw [UInt64.le_iff_toNat_le, ha]
    simp
    omega
  rw [UInt64.toNat_sub_of_le _ _ hl, ha]
  split
  · simp_all
  · have : v % 2 = 0 := by omega
    simp [this]

variable {tx : LegacyTx}

/-- Whatever the transaction, the encoding ends with `R`, `S` and one of the
two bytes 27 and 28. -/
lemma prepareTx_eq (hr : tx.r < 2 ^ 256) (hs : tx.s < 2 ^ 256) : prepareRPLTxData geth tx =
    .ok (Rlp.encodeList ((rlpFieldsToEncode geth tx).map RlpValue.content) ++
    (fixedBytes 32 tx.r ++ (fixedBytes 32 tx.s ++ [vByte tx]))) := by
  have hv : ether155V + (1 - (UInt64.ofNat tx.v &&& 1) : UInt64).toNat < 256 ^ 1 := by
    rw [sign_toNat, ether155V]
    split <;> norm_num
  have hB : fixedBytes 1
      (ether155V + (1 - (UInt64.ofNat tx.v &&& 1) : UInt64).toNat) = [vByte tx] := by
    rw [sign_toNat, ether155V, vByte]
    apply ofBytes_inj
    · rw [length_fixedBytes]
      · rfl
      · split <;> norm_num
    · rw [ofBytes_fixedBytes]
      split <;> simp
  have hrT := padZero_text_eq_encode (n := tx.r) (by norm_num : 0 < 32) (by norm_num; omega)
  have hsT := padZero_text_eq_encode (n := tx.s) (by norm_num : 0 < 32) (by norm_num; omega)
  have hT := padZero_text_eq_encode (by norm_num : 0 < 1) hv
  norm_num at hrT hsT hT
  unfold prepareRPLTxData
  rw [geth.encodeToBytes_eq]
  simp only [Outcome.ofExcept_ok, Outcome.ok_bind, hrT, hsT, hT, hB, List.append_assoc]
  rw [decodeString_encode_append, decodeString_encode_append, decodeString_encode_append,
    decodeString_encode]
  rfl

lemma preEIP155_of_unprotected (h : tx.v = 27 ∨ tx.v = 28) : isPreEIP155Tx geth tx = true := by
  obtain ⟨h27, h28⟩ := geth.chainId_unprotected
  rcases h with h | h
  · simp [isPreEIP155Tx, h, h27]
  · simp [isPreEIP155Tx, h, h28]

/-- A protected `V` is never taken for 27 or 28, although only its low 64 bits
are compared. -/
lemma preEIP155_of_protected {c : ℕ} (h : tx.v = 2 * c + 35 ∨ tx.v = 2 * c + 36) :
    isPreEIP155Tx geth tx = false := by
  have hh : geth.chainId tx.v = c := by
    rcases h with h | h
    · rw [h, (geth.chainId_protected c).1]
    · rw [h, (geth.chainId_protected c).2]
  rw [isPreEIP155Tx, hh]
  simp only [Bool.and_eq_false_iff, beq_eq_false_iff_ne, ne_eq, Bool.or_eq_false_iff,
    ← UInt64.toNat_inj, UInt64.toNat_ofNat', UInt64.toNat_zero]
  by_cases hc : c % 2 ^ 64 = 0
  · right
    simp
    omega
  · exact .inl hc

lemma chainId_of_protected {c : ℕ} (h : tx.v = 2 * c + 35 ∨ tx.v = 2 * c + 36) :
    geth.chainId tx.v = c := by
  rcases h with h | h
  · rw [h, (geth.chainId_protected c).1]
  · rw [h, (geth.chainId_protected c).2]

lemma bytesToAddr_content (a : Option Address) :
    (if (RlpValue.address a).content = [] then none
    else some (geth.bytesToAddress (RlpValue.address a).content)) = a := by
  rcases a with _ | a
  · simp [RlpValue.content]
  have hn : a.bytes ≠ [] := by
    intro h
    simpa [h] using a.length_eq
  simp [RlpValue.content, hn, geth.bytesToAddress_bytes]

lemma legacyTx_fieldsToEncode (ht : tx.Signed) : rlpFieldsToLegacyTx geth
    ((rlpFieldsToEncode geth tx).map RlpValue.content) [vByte tx] (fixedBytes 32 tx.r)
    (fixedBytes 32 tx.s) = .ok tx := by
  have ha := bytesToAddr_content geth tx.toAddr
  have hv : (vByte tx).toNat = if tx.v % 2 = 1 then 27 else 28 := by
    rw [vByte]
    split <;> rfl
  obtain ⟨nonce, gasPrice, gas, toAddr, value, data, v, r, s⟩ := tx
  rcases ht.v_cases with h | h | ⟨c, h⟩
  · have hp := preEIP155_of_unprotected geth (.inl h)
    simp only at h ha hv
    subst h
    simp [rlpFieldsToEncode, hp, rlpFieldsToLegacyTx, vByte, ofBytes_fixedBytes, ha]
  · have hp := preEIP155_of_unprotected geth (.inr h)
    simp only at h ha hv
    subst h
    simp [rlpFieldsToEncode, hp, rlpFieldsToLegacyTx, vByte, ofBytes_fixedBytes, ha]
  have hp := preEIP155_of_protected geth h
  have hc := chainId_of_protected geth h
  simp only at h ha hv hc
  simp [rlpFieldsToEncode, hp, rlpFieldsToLegacyTx, ofBytes_fixedBytes, ha, hc]
  rw [hv, double, etherPre155V, ether155V]
  split <;> omega

end EthdaNode.State
