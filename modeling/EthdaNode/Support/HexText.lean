import EthdaNode.Support.BigEndian

/-!
# Hexadecimal text

Go's `encoding/hex`, `strconv.ParseUint` in base 16, `big.Int.Text(16)` and the
zero padding of `fmt`'s `%0<width>s`, on strings given as lists of characters.
The results connect the texts with the byte strings and numbers they stand for:
a number padded to an even width is the hexadecimal text of its fixed-width
big-endian bytes.
-/

namespace HexText

open BigEndian List Nat

/-- Errors of `encoding/hex`. -/
inductive DecodeError where
  | length
  | invalidByte (c : Char)
  deriving DecidableEq, Repr

/-- Errors of `strconv.ParseUint`. -/
inductive NumError where
  | invalidSyntax
  | range
  deriving DecidableEq, Repr

def fromHexChar (c : Char) : Option ℕ :=
  if '0' ≤ c ∧ c ≤ '9' then some (c.toNat - '0'.toNat)
  else if 'a' ≤ c ∧ c ≤ 'f' then some (c.toNat - 'a'.toNat + 10)
  else if 'A' ≤ c ∧ c ≤ 'F' then some (c.toNat - 'A'.toNat + 10)
  else none

variable (bs : List UInt8)

def nibbles : List ℕ := bs.flatMap fun b => [b.toNat / 16, b.toNat % 16]

def encodeToString : List Char := (nibbles bs).map digitChar

def decodeString : List Char → Except DecodeError (List UInt8)
  | [] => .ok []
  | [p] =>
    match fromHexChar p with
    | none => .error (.invalidByte p)
    | some _ => .error .length
  | p :: q :: rest =>
    match fromHexChar p with
    | none => .error (.invalidByte p)
    | some a =>
      match fromHexChar q with
      | none => .error (.invalidByte q)
      | some b => (decodeString rest).map (UInt8.ofNat (16 * a + b) :: ·)

/-- `big.Int.Text(16)` of a number that is not negative, and `%x` of an
unsigned integer. -/
def text (n : ℕ) : List Char :=
  if n = 0 then ['0'] else ((digits 16 n).map digitChar).reverse

def padZero (width : ℕ) (s : List Char) : List Char := s.leftpad width '0'

/-- One digit of `strconv.ParseUint(s, 16, 64)`. -/
def parseDigit (n : ℕ) (c : Char) : Except NumError ℕ :=
  match fromHexChar c with
  | none => .error .invalidSyntax
  | some d => if 16 * n + d < 2 ^ 64 then .ok (16 * n + d) else .error .range

def parseUint (s : List Char) : Except NumError UInt64 :=
  match s with
  | [] => .error .invalidSyntax
  | s => (s.foldlM parseDigit 0).map UInt64.ofNat

/-! ## Digits -/

lemma fromHexChar_digitChar {d : ℕ} (hd : d < 16) : fromHexChar (digitChar d) = some d := by
  interval_cases d <;> decide

@[simp] lemma nibbles_nil : nibbles [] = [] := rfl

@[simp] lemma nibbles_cons (b : UInt8) (bs : List UInt8) :
    nibbles (b :: bs) = b.toNat / 16 :: b.toNat % 16 :: nibbles bs := by
  simp [nibbles]

@[simp] lemma length_nibbles : (nibbles bs).length = 2 * bs.length := by
  induction bs with
  | nil => rfl
  | cons b bs ih =>
    rw [nibbles_cons]
    simp [ih]
    omega

lemma nibbles_lt : ∀ d ∈ nibbles bs, d < 16 := by
  intro d hd
  simp only [nibbles, mem_flatMap, mem_cons, not_mem_nil, or_false] at hd
  obtain ⟨b, _, rfl | rfl⟩ := hd
  · have := b.toNat_lt
    omega
  · omega

lemma ofDigits_nibbles : ofDigits 16 (nibbles bs).reverse = ofBytes bs := by
  induction bs with
  | nil => simp
  | cons b bs ih =>
    have hp : (16 : ℕ) ^ (2 * bs.length) = 256 ^ bs.length := by
      rw [pow_mul]
      norm_num
    rw [nibbles_cons, ofBytes_cons, reverse_cons, reverse_cons, append_assoc, ofDigits_append, ih]
    simp only [length_reverse, length_nibbles, hp, cons_append, nil_append, ofDigits_cons,
      ofDigits_nil, mul_zero, add_zero]
    have hs : b.toNat % 16 + 16 * (b.toNat / 16) = b.toNat := mod_add_div _ _
    rw [hs]
    ring

/-! ## Decoding -/

lemma decodeString_encode_append (s : List Char) :
    decodeString (encodeToString bs ++ s) = (decodeString s).map (bs ++ ·) := by
  induction bs with
  | nil =>
    simp only [encodeToString, nibbles_nil, map_nil, nil_append]
    cases decodeString s <;> rfl
  | cons b bs ih =>
    have hb := b.toNat_lt
    have hy : 16 * (b.toNat / 16) + b.toNat % 16 = b.toNat := div_add_mod _ _
    simp only [encodeToString, nibbles_cons, map_cons, cons_append, decodeString] at ih ⊢
    rw [fromHexChar_digitChar (by omega), fromHexChar_digitChar (by omega)]
    dsimp only
    rw [ih, hy, UInt8.ofNat_toNat]
    cases decodeString s <;> rfl

lemma decodeString_encode : decodeString (encodeToString bs) = .ok bs := by
  have h := decodeString_encode_append bs []
  simpa [decodeString, Except.map] using h

def fixedBytes (width n : ℕ) : List UInt8 := (toBytes n).leftpad width 0

variable {width : ℕ}

lemma length_fixedBytes {n : ℕ} (hn : n < 256 ^ width) : (fixedBytes width n).length = width := by
  have hl := (length_toBytes_le_iff n width).mpr hn
  rw [fixedBytes, length_leftpad]
  omega

lemma ofBytes_fixedBytes (width n : ℕ) : ofBytes (fixedBytes width n) = n := by
  rw [fixedBytes, List.leftpad, ofBytes_replicate_zero_append, ofBytes_toBytes]

lemma fixedBytes_ofBytes : fixedBytes bs.length (ofBytes bs) = bs := by
  apply ofBytes_inj
  · exact length_fixedBytes (ofBytes_lt bs)
  · exact ofBytes_fixedBytes _ _

lemma map_digitChar_leftpad (width : ℕ) (ds : List ℕ) :
    (ds.leftpad width 0).map digitChar = (ds.map digitChar).leftpad width '0' := by
  have hz : digitChar 0 = '0' := by decide
  simp [List.leftpad, hz]

/-- Padding the text of a number amounts to padding its digits. -/
lemma padZero_text (hw : 0 < width) (n : ℕ) :
    padZero width (text n) = ((digits 16 n).reverse.leftpad width 0).map digitChar := by
  by_cases hn : n = 0
  · obtain ⟨w, rfl⟩ := exists_eq_succ_of_ne_zero (by omega : width ≠ 0)
    have hz : digitChar 0 = '0' := by decide
    simp [padZero, text, hn, List.leftpad, hz, replicate_succ']
  · rw [map_digitChar_leftpad, padZero, text, if_neg hn, map_reverse]

lemma padZero_text_eq_encode {n : ℕ} (hw : 0 < width) (hn : n < 256 ^ width) :
    padZero (2 * width) (text n) = encodeToString (fixedBytes width n) := by
  rw [padZero_text (by omega), encodeToString]
  congr 1
  have hp : (16 : ℕ) ^ (2 * width) = 256 ^ width := by
    rw [pow_mul]
    norm_num
  have hg : (digits 16 n).length ≤ 2 * width := by
    rw [digits_length_le_iff (by norm_num), hp]
    exact hn
  apply reverse_injective
  refine ofDigits_inj_of_len_eq (b := 16) (by norm_num) ?_ ?_ ?_ ?_
  · rw [length_reverse, length_reverse, length_leftpad,
      length_nibbles, length_fixedBytes hn, length_reverse]
    omega
  · intro d hd
    simp only [List.leftpad, reverse_append, reverse_replicate,
      reverse_reverse, mem_append, mem_replicate] at hd
    rcases hd with hd | hd
    · exact digits_lt_base (by norm_num) hd
    · omega
  · intro d hd
    exact nibbles_lt _ d (mem_reverse.mp hd)
  · rw [ofDigits_nibbles, ofBytes_fixedBytes, List.leftpad, reverse_append, reverse_reverse,
      reverse_replicate, ofDigits_append_replicate_zero, ofDigits_digits]

lemma foldlM_parseDigit_nibbles (n : ℕ) (hn : n * 256 ^ bs.length + ofBytes bs < 2 ^ 64) :
    (encodeToString bs).foldlM parseDigit n = .ok (n * 256 ^ bs.length + ofBytes bs) := by
  induction bs generalizing n with
  | nil => simp [encodeToString]; rfl
  | cons b bs ih =>
    have hb := b.toNat_lt
    have hv : n * 256 ^ (b :: bs).length + ofBytes (b :: bs) =
        (16 * (16 * n + b.toNat / 16) + b.toNat % 16) * 256 ^ bs.length + ofBytes bs := by
      have hs : 16 * (b.toNat / 16) + b.toNat % 16 = b.toNat := div_add_mod _ _
      rw [ofBytes_cons, length_cons, pow_succ]
      conv_lhs => rw [← hs]
      ring
    have hp : 1 ≤ 256 ^ bs.length := one_le_pow _ _ (by norm_num)
    rw [hv] at hn ⊢
    have hl : 16 * (16 * n + b.toNat / 16) + b.toNat % 16 < 2 ^ 64 := by
      have hm := mul_le_mul_left (16 * (16 * n + b.toNat / 16) + b.toNat % 16) hp
      omega
    simp only [encodeToString, nibbles_cons, map_cons, foldlM_cons, parseDigit] at ih ⊢
    rw [fromHexChar_digitChar (by omega), fromHexChar_digitChar (by omega)]
    dsimp only
    rw [if_pos (by omega)]
    change (if 16 * (16 * n + b.toNat / 16) + b.toNat % 16 < 2 ^ 64
      then (Except.ok (16 * (16 * n + b.toNat / 16) + b.toNat % 16) :
        Except NumError ℕ)
      else Except.error NumError.range) >>= _ = _
    rw [if_pos hl]
    exact ih _ hn

lemma parseUint_encode {bs : List UInt8} (hn : bs ≠ []) (hl : bs.length ≤ 8) :
    parseUint (encodeToString bs) = .ok (UInt64.ofNat (ofBytes bs)) := by
  have ht : ofBytes bs < 2 ^ 64 := by
    refine lt_of_lt_of_le (ofBytes_lt bs) ?_
    calc
      256 ^ bs.length ≤ 256 ^ 8 := Nat.pow_le_pow_right (by norm_num) hl
      _ = 2 ^ 64 := by norm_num
  have hf := foldlM_parseDigit_nibbles bs 0 (by omega)
  obtain ⟨b, rest, rfl⟩ := exists_cons_of_ne_nil hn
  rw [parseUint]
  · rw [hf]
    simp [Except.map]
  · simp [encodeToString]

end HexText
