import Mathlib.Data.Nat.Digits.Lemmas

/-!
# Big-endian byte strings

Numbers written as byte strings, most significant byte first. `ofBytes` reads
a byte string of any shape; `toBytes` writes the shortest one. The shortest
strings are exactly those without a leading zero byte, so reading and writing
are inverse on them.
-/

namespace BigEndian

open List Nat UInt8

variable (bs : List UInt8)

def ofBytes : ℕ := bs.foldl (fun acc b => 256 * acc + b.toNat) 0

variable (n : ℕ)

/-- The shortest big-endian byte string denoting `n`; empty for zero. -/
def toBytes : List UInt8 := ((digits 256 n).map ofNat).reverse

/-- A byte string without a leading zero byte. -/
def Minimal : Prop := bs.head? ≠ some 0

instance (bs : List UInt8) : Decidable (Minimal bs) :=
  inferInstanceAs (Decidable (bs.head? ≠ some 0))

/-! ## Reading -/

@[simp] lemma ofBytes_nil : ofBytes [] = 0 := rfl

lemma ofBytes_eq_ofDigits : ofBytes bs = ofDigits 256 (bs.map toNat).reverse := by
  unfold ofBytes
  induction bs using List.reverseRecOn with
  | nil => simp
  | append_singleton bs b ih =>
    rw [foldl_append, ih]
    simp [ofDigits_cons]
    ring

lemma ofBytes_append (cs : List UInt8) :
    ofBytes (bs ++ cs) = ofBytes bs * 256 ^ cs.length + ofBytes cs := by
  rw [ofBytes_eq_ofDigits, ofBytes_eq_ofDigits, ofBytes_eq_ofDigits,
    map_append, reverse_append, ofDigits_append]
  simp
  ring

@[simp] lemma ofBytes_singleton (b : UInt8) : ofBytes [b] = b.toNat := by simp [ofBytes]

lemma ofBytes_cons (b : UInt8) (bs : List UInt8) :
    ofBytes (b :: bs) = b.toNat * 256 ^ bs.length + ofBytes bs := by
  have h := ofBytes_append [b] bs
  simpa using h

lemma ofBytes_replicate_zero_append (k : ℕ) (bs : List UInt8) :
    ofBytes (List.replicate k 0 ++ bs) = ofBytes bs := by
  rw [ofBytes_append, ofBytes_eq_ofDigits (List.replicate k 0)]
  simp

lemma toNat_digits_lt : ∀ d ∈ (bs.map toNat).reverse, d < 256 := by
  intro d hd
  rw [mem_reverse, mem_map] at hd
  obtain ⟨b, _, rfl⟩ := hd
  exact b.toNat_lt

lemma ofBytes_lt : ofBytes bs < 256 ^ bs.length := by
  rw [ofBytes_eq_ofDigits]
  have h := ofDigits_lt_base_pow_length (b := 256) (by norm_num) (toNat_digits_lt bs)
  simpa using h

/-- Byte strings of one length are determined by the number they denote. -/
lemma ofBytes_inj {bs cs : List UInt8} (hl : bs.length = cs.length)
    (h : ofBytes bs = ofBytes cs) : bs = cs := by
  rw [ofBytes_eq_ofDigits, ofBytes_eq_ofDigits] at h
  have hd := ofDigits_inj_of_len_eq (b := 256) (by norm_num)
    (by simp [hl]) (toNat_digits_lt bs) (toNat_digits_lt cs) h
  rw [reverse_inj] at hd
  exact map_injective_iff.mpr (fun _ _ => UInt8.toNat_inj.mp) hd

@[simp] lemma toBytes_zero : toBytes 0 = [] := by simp [toBytes]

lemma map_toNat_toBytes : ((toBytes n).map toNat).reverse = digits 256 n := by
  rw [toBytes, map_reverse, reverse_reverse, map_map]
  conv_rhs => rw [← map_id (digits 256 n)]
  apply map_congr_left
  intro d hd
  have hl : d < 256 := digits_lt_base (by norm_num) hd
  simp [mod_eq_of_lt hl]

@[simp] lemma ofBytes_toBytes : ofBytes (toBytes n) = n := by
  rw [ofBytes_eq_ofDigits, map_toNat_toBytes, ofDigits_digits]

lemma length_toBytes_le_iff (k : ℕ) : (toBytes n).length ≤ k ↔ n < 256 ^ k := by
  rw [toBytes, length_reverse, length_map]
  exact digits_length_le_iff (by norm_num) n

lemma toBytes_ne_nil {n : ℕ} (hn : n ≠ 0) : toBytes n ≠ [] := by
  have he : digits 256 n ≠ [] := digits_ne_nil_iff_ne_zero.mpr hn
  simpa [toBytes] using he

lemma minimal_toBytes : Minimal (toBytes n) := by
  unfold Minimal
  by_cases hn : n = 0
  · simp [hn]
  have he : digits 256 n ≠ [] := digits_ne_nil_iff_ne_zero.mpr hn
  have hl := getLast_digit_ne_zero 256 hn
  have hlt : (digits 256 n).getLast he < 256 := digits_lt_base (by norm_num) (getLast_mem he)
  rw [toBytes, head?_reverse, getLast?_map, getLast?_eq_getLast_of_ne_nil he]
  intro h
  have hz : ofNat ((digits 256 n).getLast he) = 0 := by simpa using h
  have ht := congrArg toNat hz
  rw [toNat_ofNat_of_lt' hlt] at ht
  exact hl (by simpa using ht)

lemma toBytes_ofBytes {bs : List UInt8} (h : Minimal bs) : toBytes (ofBytes bs) = bs := by
  have hd : digits 256 (ofBytes bs) = (bs.map toNat).reverse := by
    rw [ofBytes_eq_ofDigits]
    apply digits_ofDigits 256 (by norm_num) _ (toNat_digits_lt bs)
    intro hn
    rw [getLast_reverse, head_map]
    intro hz
    apply h
    cases bs with
    | nil => simp at hn
    | cons b bs =>
      have hb : b = 0 := UInt8.toNat_inj.mp (by simpa using hz)
      simp [hb]
  apply reverse_injective
  rw [toBytes, hd, map_reverse, reverse_reverse, map_map]
  congr 1
  calc
    List.map (ofNat ∘ toNat) bs = List.map id bs := by
      apply map_congr_left
      intro b _
      exact UInt8.ofNat_toNat
    _ = bs := map_id bs

lemma toBytes_ofBytes_iff : toBytes (ofBytes bs) = bs ↔ Minimal bs := by
  constructor
  · intro h
    rw [← h]
    exact minimal_toBytes _
  · exact toBytes_ofBytes

end BigEndian
