import EthdaNode.Support.HexText
import Mathlib.Data.List.DropRight

/-!
# Block and batch numbers as arguments

A number argument is a tag or a numeral. The tags are negative values of a signed type, and the
parser converts an unsigned 64-bit number to that type.
-/

namespace EthdaNode.JsonRpc

open HexText List

/-! ## Numerals -/

def digitStep (base n : ℕ) (c : Char) : Option ℕ :=
  (fromHexChar c).bind fun d => if d < base then some (base * n + d) else none

def valueOf (base : ℕ) (s : List Char) : Option ℕ :=
  if s = [] then none else s.foldlM (digitStep base) 0

/-- A decimal numeral, or a hexadecimal one after `0x`. -/
def numeral : List Char → Option ℕ
  | '0' :: 'x' :: s => valueOf 16 s
  | s => valueOf 10 s

/-- `DecodeUint64orHex`: `ParseUint` rejects what is not below 2^64. -/
def decodeUint64orHex (s : List Char) : Option ℕ := (numeral s).filter (· < 2 ^ 64)

def trim (s : List Char) : List Char := (s.dropWhile (· = '"')).rdropWhile (· = '"')

def toInt64 (n : ℕ) : ℤ := if n < 2 ^ 63 then n else n - 2 ^ 64

def tagged (tags : List (List Char × ℤ)) (str : List Char) : Option ℤ :=
  match tags.lookup (trim str) with
  | some n => some n
  | none => (decodeUint64orHex (trim str)).map toInt64

def blockTags : List (List Char × ℤ) :=
  [("earliest".toList, -1), ("pending".toList, -3), ("latest".toList, -2), ([], -2),
    ("safe".toList, -4), ("finalized".toList, -5)]

def batchTags : List (List Char × ℤ) := [("earliest".toList, -1), ("latest".toList, -2), ([], -2)]

def stringToBlockNumber : List Char → Option ℤ := tagged blockTags

def stringToBatchNumber : List Char → Option ℤ := tagged batchTags

def stringOrHex (n : ℤ) : List Char :=
  if n = -1 then "earliest".toList
  else if n = -3 then "pending".toList
  else if n = -2 then "latest".toList
  else if n = -4 then "safe".toList
  else if n = -5 then "finalized".toList
  else '0' :: 'x' :: text (n % 2 ^ 64).toNat

variable {base v : ℕ} {s : List Char}

lemma isSome_of_foldlM {n : ℕ} (h : s.foldlM (digitStep base) n = some v) :
    ∀ c ∈ s, (fromHexChar c).isSome := by
  induction s generalizing n with
  | nil => simp
  | cons c s ih =>
    obtain ⟨m, hm, hr⟩ := Option.bind_eq_some_iff.mp h
    obtain ⟨d, hd, -⟩ := Option.bind_eq_some_iff.mp hm
    exact forall_mem_cons.mpr ⟨by rw [hd]; rfl, ih hr⟩

lemma ne_quote_of_numeral (h : numeral s = some v) : ∀ c ∈ s, c ≠ '"' := by
  have hv : ∀ {base s}, valueOf base s = some v → ∀ c ∈ s, c ≠ '"' := by
    intro base s h c hc hq
    rw [valueOf] at h
    split_ifs at h
    have hs := isSome_of_foldlM h c hc
    rw [hq] at hs
    exact absurd hs (by decide)
  rw [numeral.eq_def] at h
  split at h
  · next rest =>
    simp only [forall_mem_cons]
    exact ⟨by decide, by decide, hv h⟩
  · exact hv h

lemma trim_of_numeral (h : numeral s = some v) : trim s = s := by
  have hq := ne_quote_of_numeral h
  have hd : s.dropWhile (· = '"') = s := by
    cases s with
    | nil => rfl
    | cons c s => simp [hq c mem_cons_self]
  rw [trim, hd, rdropWhile_eq_self_iff]
  intro hn
  simpa using hq _ (getLast_mem hn)

lemma tagged_of_numeral {tags : List (List Char × ℤ)} (ht : ∀ tag ∈ tags, numeral tag.1 = none)
    (h : numeral s = some v) :
    tagged tags s = if v < 2 ^ 64 then some (toInt64 v) else none := by
  have hl : tags.lookup s = none := by
    rw [lookup_eq_none_iff]
    intro tag hg
    rw [bne_iff_ne]
    rintro rfl
    rw [ht tag hg] at h
    cases h
  rw [tagged, trim_of_numeral h, hl, decodeUint64orHex, h]
  simp only [Option.filter_some, decide_eq_true_eq]
  split_ifs <;> rfl

lemma foldlM_digits {ds : List ℕ} (hd : ∀ d ∈ ds, d < 16) :
    (ds.map Nat.digitChar).reverse.foldlM (digitStep 16) 0 = some (Nat.ofDigits 16 ds) := by
  induction ds with
  | nil => rfl
  | cons d ds ih =>
    rw [forall_mem_cons] at hd
    rw [map_cons, reverse_cons, foldlM_append, ih hd.2, Nat.ofDigits_cons]
    simp [digitStep, fromHexChar_digitChar hd.1, hd.1, Nat.add_comm]

lemma numeral_text (n : ℕ) : numeral ('0' :: 'x' :: text n) = some n := by
  by_cases h0 : n = 0
  · subst h0
    decide
  rw [numeral, valueOf, text, if_neg h0,
    if_neg (by simpa [Nat.digits_eq_nil_iff_eq_zero] using h0),
    foldlM_digits fun d hd => Nat.digits_lt_base (by norm_num) hd, Nat.ofDigits_digits]

lemma tagged_stringOrHex {tags : List (List Char × ℤ)} (ht : ∀ tag ∈ tags, numeral tag.1 = none)
    {n : ℤ} (hn : 0 ≤ n) (hl : n < 2 ^ 63) : tagged tags (stringOrHex n) = some n := by
  have hm : n % 2 ^ 64 = n := Int.emod_eq_of_lt hn (by omega)
  rw [stringOrHex, if_neg (by omega), if_neg (by omega), if_neg (by omega), if_neg (by omega),
    if_neg (by omega), tagged_of_numeral ht (numeral_text _), hm, if_pos (by omega), toInt64,
    if_pos (by omega), Int.toNat_of_nonneg hn]

lemma tagged_right_iff {tags : List (List Char × ℤ)} (ht : ∀ tag ∈ tags, numeral tag.1 = none)
    (h : numeral s = some v) :
    (tagged tags s = none ∨ tagged tags s = some (v : ℤ)) ↔ v < 2 ^ 63 ∨ 2 ^ 64 ≤ v := by
  rw [tagged_of_numeral ht h, toInt64]
  split_ifs with h64 h63
  · exact iff_of_true (.inr rfl) (.inl h63)
  · simp
    omega
  · simp
    omega

/-- A block number is read back from its text, and a batch number unless it is one of the tags
`pending`, `safe` and `finalized`. A numeral is rejected or read as its number unless it denotes a
number from 2^63 to 2^64. -/
theorem numberArguments_iff (n : ℤ) (hn : -5 ≤ n) (hlt : n < 2 ^ 63) (s : List Char) (v : ℕ)
    (h : numeral s = some v) : stringToBlockNumber (stringOrHex n) = some n ∧
    (stringToBatchNumber (stringOrHex n) = some n ↔ n ∉ [-3, -4, -5]) ∧
    ∀ parse ∈ [stringToBlockNumber, stringToBatchNumber],
      (parse s = none ∨ parse s = some (v : ℤ)) ↔ v < 2 ^ 63 ∨ 2 ^ 64 ≤ v := by
  have hbl : ∀ tag ∈ blockTags, numeral tag.1 = none := by decide
  have hba : ∀ tag ∈ batchTags, numeral tag.1 = none := by decide
  refine ⟨?_, ?_, ?_⟩
  · by_cases hneg : n < 0
    · interval_cases n <;> decide
    · exact tagged_stringOrHex hbl (by omega) hlt
  · by_cases hneg : n < 0
    · interval_cases n <;> decide
    have hpos : n ∉ [-3, -4, -5] := by
      simp only [mem_cons, not_mem_nil, or_false]
      omega
    exact iff_of_true (tagged_stringOrHex hba (by omega) hlt) hpos
  · intro parse hp
    simp only [mem_cons, not_mem_nil, or_false] at hp
    rcases hp with rfl | rfl
    · exact tagged_right_iff hbl h
    · exact tagged_right_iff hba h

theorem numberArguments_iff_seven : stringToBatchNumber (stringOrHex 7) = some 7 :=
  (numberArguments_iff 7 (by decide) (by decide) ['1'] 1 rfl).2.1.mpr (by decide)

/-- The numeral of 2^64 - 2 is taken for `latest`, and `pending` is no batch number. -/
theorem numeral_taken_for_latest :
    stringToBlockNumber "18446744073709551614".toList = some (-2) ∧
    stringToBatchNumber (stringOrHex (-3)) = none := by decide

end EthdaNode.JsonRpc
