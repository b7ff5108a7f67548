import EthdaNode.Support.BigEndian

/-!
# Recursive-length prefix encoding of lists of byte strings

The part of the RLP format that serialises a flat list of byte strings. An
item is a header that gives the length of its payload, followed by the payload;
string headers start at `0x80` and list headers at `0xc0`. The decoder accepts
canonical encodings only: no leading zero byte in a long length, no long form
for a length up to 55, no header for a single byte below `0x80`.

The main results say that the decoder accepts exactly the encodings, and that
no encoding is a proper prefix of another one.
-/

namespace Rlp

open BigEndian List UInt8 Option

variable (base : UInt8)

/-- The header of an item whose payload has `n` bytes; `base` is the kind of
the item. -/
def header (n : ℕ) : List UInt8 :=
  if n ≤ 55 then [base + ofNat n]
  else (base + 55 + ofNat (toBytes n).length) :: toBytes n

variable (s : List UInt8)

def encodeString : List UInt8 :=
  match s with
  | [b] => if b < 0x80 then [b] else header 0x80 1 ++ [b]
  | s => header 0x80 s.length ++ s

def payload (items : List (List UInt8)) : List UInt8 := items.flatMap encodeString

def encodeList (items : List (List UInt8)) : List UInt8 :=
  header 0xc0 (payload items).length ++ payload items

/-- Read a header of kind `base`, giving the payload length and what follows
the header. -/
def takeHeader : List UInt8 → Option (ℕ × List UInt8)
  | [] => none
  | b :: rest =>
    if b.toNat < base.toNat then none
    else if b.toNat ≤ base.toNat + 55 then some (b.toNat - base.toNat, rest)
    else
      let k := b.toNat - base.toNat - 55
      let len := rest.take k
      if len.length = k ∧ k ≤ 8 ∧ Minimal len ∧ 55 < ofBytes len then
        some (ofBytes len, rest.drop k)
      else none

/-- Read an item of kind `base`, giving its payload and what follows it. -/
def takeItem (bs : List UInt8) : Option (List UInt8 × List UInt8) :=
  match takeHeader base bs with
  | none => none
  | some (n, rest) => if n ≤ rest.length then some (rest.take n, rest.drop n) else none

def takeString : List UInt8 → Option (List UInt8 × List UInt8)
  | [] => none
  | b :: rest =>
    if b < 0x80 then some ([b], rest)
    else if b < 0xc0 then
      match takeItem 0x80 (b :: rest) with
      | none => none
      | some (s, rest') =>
        match s with
        | [c] => if c < 0x80 then none else some ([c], rest')
        | s => some (s, rest')
    else none

/-- Read byte strings up to the end, at most `fuel` of them. -/
def takeStrings : ℕ → List UInt8 → Option (List (List UInt8))
  | _, [] => some []
  | 0, _ :: _ => none
  | fuel + 1, b :: bs =>
    match takeString (b :: bs) with
    | none => none
    | some (s, rest) => (takeStrings fuel rest).map (s :: ·)

/-- Decode a list of byte strings; nothing may follow it. -/
def decodeList (bs : List UInt8) : Option (List (List UInt8)) :=
  match takeItem 0xc0 bs with
  | some (p, []) => takeStrings p.length p
  | _ => none

/-! ## Headers -/

lemma header_ne_nil (n : ℕ) : header base n ≠ [] := by
  unfold header
  split <;> simp

lemma length_toBytes_le_eight {n : ℕ} (hn : n < 2 ^ 64) : (toBytes n).length ≤ 8 := by
  rw [length_toBytes_le_iff]
  omega

lemma header_cases {base : UInt8} (hb : base.toNat ≤ 192) {n : ℕ} (hn : n < 2 ^ 64) : (n ≤ 55 ∧
    ∃ b : UInt8, b.toNat = base.toNat + n ∧ header base n = [b]) ∨ (55 < n ∧
    1 ≤ (toBytes n).length ∧ (toBytes n).length ≤ 8 ∧ ∃ b : UInt8, b.toNat =
    base.toNat + 55 + (toBytes n).length ∧ header base n = b :: toBytes n) := by
  by_cases hs : n ≤ 55
  · refine .inl ⟨hs, base + ofNat n, ?_, by simp [header, hs]⟩
    rw [UInt8.toNat_add, UInt8.toNat_ofNat']
    omega
  have hl := length_toBytes_le_eight hn
  have hp : 1 ≤ (toBytes n).length := length_pos_of_ne_nil (toBytes_ne_nil (by omega))
  refine .inr ⟨by omega, hp, hl,
    base + 55 + ofNat (toBytes n).length, ?_, by simp [header, hs]⟩
  rw [UInt8.toNat_add, UInt8.toNat_add, UInt8.toNat_ofNat']
  simp
  omega

variable {base : UInt8}

lemma takeHeader_append (hs : base.toNat ≤ 192) {n : ℕ} (hn : n < 2 ^ 64)
    (rest : List UInt8) : takeHeader base (header base n ++ rest) = some (n, rest) := by
  rcases header_cases hs hn with
    ⟨hshort, b, hb, heq⟩ | ⟨hlong, hpos, hle, b, hb, heq⟩
  · rw [heq, singleton_append, takeHeader, hb, if_neg (by omega), if_pos (by omega)]
    simp
  have hk : b.toNat - base.toNat - 55 = (toBytes n).length := by omega
  rw [heq, cons_append, takeHeader, if_neg (by omega), if_neg (by omega), hk]
  simp only [take_left, drop_left, ofBytes_toBytes]
  rw [if_pos ⟨trivial, hle, minimal_toBytes n, hlong⟩]

variable {bs : List UInt8}

lemma eq_header_of_takeHeader (hb : base.toNat ≤ 192) {rest : List UInt8} {n : ℕ}
    (h : takeHeader base bs = some (n, rest)) : n < 2 ^ 64 ∧ bs = header base n ++ rest := by
  rcases bs with _ | ⟨b, tail⟩
  · simp [takeHeader] at h
  rw [takeHeader] at h
  split at h
  · simp at h
  next he =>
  split at h
  · next hs =>
    cases h
    have hn : b.toNat - base.toNat < 2 ^ 64 := by omega
    refine ⟨hn, ?_⟩
    rcases header_cases hb hn with
      ⟨_, c, hc, heq⟩ | ⟨ho, _⟩
    · rw [heq, singleton_append]
      congr 1
      apply UInt8.toNat_inj.mp
      omega
    · omega
  next ho =>
  simp only at h
  split at h
  · next hcn =>
    obtain ⟨hln, hk, hm, hg⟩ := hcn
    cases h
    have hbc := toBytes_ofBytes hm
    have hn : ofBytes (tail.take (b.toNat - base.toNat - 55)) < 2 ^ 64 := by
      have hl := ofBytes_lt (tail.take (b.toNat - base.toNat - 55))
      rw [hln] at hl
      refine lt_of_lt_of_le hl ?_
      calc
        256 ^ (b.toNat - base.toNat - 55) ≤ 256 ^ 8 := Nat.pow_le_pow_right (by norm_num) hk
        _ = 2 ^ 64 := by norm_num
    refine ⟨hn, ?_⟩
    rcases header_cases hb hn with
      ⟨hle, _⟩ | ⟨_, _, _, c, hc, heq⟩
    · omega
    rw [heq, hbc, cons_append, take_append_drop]
    congr 1
    apply UInt8.toNat_inj.mp
    rw [hbc] at hc
    omega
  · simp at h

lemma takeItem_append (hb : base.toNat ≤ 192) {p : List UInt8} (hp : p.length < 2 ^ 64)
    (rest : List UInt8) : takeItem base (header base p.length ++ p ++ rest) = some (p, rest) := by
  rw [takeItem, append_assoc, takeHeader_append hb hp]
  simp

lemma eq_append_of_takeItem (hb : base.toNat ≤ 192) {p rest : List UInt8} (h : takeItem base bs =
    some (p, rest)) : p.length < 2 ^ 64 ∧ bs = header base p.length ++ p ++ rest := by
  rw [takeItem] at h
  split at h
  · simp at h
  next n tail ht =>
  split at h
  · next hle =>
    cases h
    obtain ⟨hn, he⟩ := eq_header_of_takeHeader hb ht
    have hl : (tail.take n).length = n := by simp [hle]
    rw [hl]
    refine ⟨hn, ?_⟩
    rw [he, append_assoc, take_append_drop]
  · simp at h

lemma encodeString_ne_nil : encodeString s ≠ [] := by
  unfold encodeString
  split
  · split <;> simp
  · intro h
    exact header_ne_nil _ _ (append_eq_nil_iff.mp h).1

lemma takeString_append {s : List UInt8} (hs : s.length < 2 ^ 64) (rest : List UInt8) :
    takeString (encodeString s ++ rest) = some (s, rest) := by
  have hbs : (0x80 : UInt8).toNat ≤ 192 := by decide
  by_cases hsn : ∃ b : UInt8, s = [b] ∧ b < 0x80
  · obtain ⟨b, rfl, hb⟩ := hsn
    simp [encodeString, hb, takeString]
  have hen : encodeString s = header 0x80 s.length ++ s := by
    unfold encodeString
    split
    · next b =>
      rw [if_neg (fun hb => hsn ⟨b, rfl, hb⟩)]
      rfl
    · rfl
  have ht := takeItem_append hbs hs rest
  rw [← hen] at ht
  obtain ⟨b, tail, hn⟩ := exists_cons_of_ne_nil (encodeString_ne_nil s)
  have hh : 128 ≤ b.toNat ∧ b.toNat < 192 := by
    rw [hen] at hn
    rcases header_cases hbs hs with ⟨_, c, hc, he⟩ | ⟨_, _, _, c, hc, he⟩
    · rw [he] at hn
      obtain ⟨rfl, _⟩ := List.cons.inj hn
      simp at hc
      omega
    rw [he] at hn
    obtain ⟨rfl, _⟩ := List.cons.inj hn
    simp at hc
    omega
  rw [hn, cons_append] at ht ⊢
  have hg : ¬b < 0x80 := by
    rw [lt_iff_toNat_lt]
    simp
    omega
  have hl : b < 0xc0 := by
    rw [lt_iff_toNat_lt]
    simp
    omega
  rw [takeString, if_neg hg, if_pos hl, ht]
  dsimp only
  split
  · next c =>
    rw [if_neg (fun hc => hsn ⟨c, rfl, hc⟩)]
  · rfl

lemma eq_append_of_takeString {s rest : List UInt8} (h : takeString bs = some (s, rest)) :
    bs = encodeString s ++ rest := by
  have hs : (0x80 : UInt8).toNat ≤ 192 := by decide
  rcases bs with _ | ⟨b, tail⟩
  · simp [takeString] at h
  rw [takeString] at h
  split at h
  · next hb =>
    cases h
    simp [encodeString, hb]
  split at h
  · split at h
    · simp at h
    next p rest' ht =>
    have he := (eq_append_of_takeItem hs ht).2
    split at h
    · next c =>
      split at h
      · simp at h
      next hc =>
      cases h
      simpa [encodeString, hc] using he
    next hn =>
    cases h
    rw [he]
    unfold encodeString
    split
    · next c => exact absurd rfl (hn c)
    · rfl
  · simp at h

lemma length_le_encodeString : s.length ≤ (encodeString s).length := by
  unfold encodeString
  split
  · split <;> simp
  · simp

@[simp] lemma payload_nil : payload [] = [] := rfl

@[simp] lemma payload_cons (items : List (List UInt8)) :
    payload (s :: items) = encodeString s ++ payload items := by
  simp [payload]

variable {items : List (List UInt8)}

lemma takeStrings_payload {fuel : ℕ} (hl : (payload items).length < 2 ^ 64)
    (hf : (payload items).length ≤ fuel) : takeStrings fuel (payload items) = some items := by
  induction items generalizing fuel with
  | nil => cases fuel <;> simp [takeStrings]
  | cons s items ih =>
    rw [payload_cons, length_append] at hl hf
    have hp := length_pos_of_ne_nil (encodeString_ne_nil s)
    have hs : s.length < 2 ^ 64 := by
      have := length_le_encodeString s
      omega
    rcases fuel with _ | fuel
    · omega
    have ht := takeString_append hs (payload items)
    obtain ⟨b, tail, hc⟩ := exists_cons_of_ne_nil (encodeString_ne_nil s)
    rw [payload_cons]
    rw [hc, cons_append] at ht ⊢
    rw [takeStrings, ht]
    dsimp only
    rw [ih (by omega) (by omega)]
    rfl

lemma eq_payload_of_takeStrings {fuel : ℕ} (h : takeStrings fuel bs = some items) :
    bs = payload items := by
  induction fuel generalizing bs items with
  | zero =>
    cases bs with
    | nil =>
      simp only [takeStrings, some.injEq] at h
      simp [← h]
    | cons b bs => simp [takeStrings] at h
  | succ fuel ih =>
    rcases bs with _ | ⟨b, bs⟩
    · simp only [takeStrings, some.injEq] at h
      simp [← h]
    rw [takeStrings] at h
    split at h
    · simp at h
    next s rest ht =>
    rw [map_eq_some_iff] at h
    obtain ⟨items', hr, rfl⟩ := h
    rw [eq_append_of_takeString ht, payload_cons, ih hr]

lemma takeItem_encodeList_append (hl : (encodeList items).length < 2 ^ 64) (rest : List UInt8) :
    takeItem 0xc0 (encodeList items ++ rest) = some (payload items, rest) := by
  rw [encodeList, length_append] at hl
  rw [encodeList]
  exact takeItem_append (by decide) (by omega) rest

lemma decodeList_some_iff (hb : bs.length < 2 ^ 64) (items : List (List UInt8)) :
    decodeList bs = some items ↔ bs = encodeList items := by
  constructor
  · intro h
    rw [decodeList] at h
    split at h
    · next p ht =>
      have he := (eq_append_of_takeItem (by decide) ht).2
      have hp := eq_payload_of_takeStrings h
      rw [he, hp, encodeList, append_nil]
    · simp at h
  intro h
  subst h
  have ht := takeItem_encodeList_append hb []
  rw [append_nil] at ht
  have hl : (payload items).length < 2 ^ 64 := by
    rw [encodeList, length_append] at hb
    omega
  rw [decodeList, ht]
  exact takeStrings_payload hl le_rfl

lemma encodeList_append_inj {items items' : List (List UInt8)} {rest rest' : List UInt8}
    (hl : (encodeList items).length < 2 ^ 64) (he : (encodeList items').length < 2 ^ 64)
    (h : encodeList items ++ rest = encodeList items' ++ rest') : items = items' ∧ rest =
    rest' := by
  have ht := takeItem_encodeList_append hl rest
  rw [h, takeItem_encodeList_append he rest'] at ht
  obtain ⟨hy, hr⟩ := Prod.mk.inj (some.inj ht)
  refine ⟨?_, hr.symm⟩
  have hp : (payload items).length < 2 ^ 64 := by
    rw [encodeList, length_append] at hl
    omega
  have hd := takeStrings_payload hp le_rfl
  rw [← hy] at hd hp
  rw [takeStrings_payload hp le_rfl] at hd
  exact (some.inj hd).symm

lemma encodeList_cases (hl : (encodeList items).length < 2 ^ 64) : ((payload items).length ≤ 55 ∧
    ∃ b : UInt8, b.toNat = 192 + (payload items).length ∧ encodeList items = b :: payload items) ∨
    (55 < (payload items).length ∧ ∃ (b : UInt8) (len : List UInt8), 1 ≤ len.length ∧
    len.length ≤ 8 ∧ b.toNat = 247 + len.length ∧ ofBytes len = (payload items).length ∧
    encodeList items = b :: (len ++ payload items)) := by
  have hp : (payload items).length < 2 ^ 64 := by
    rw [encodeList, length_append] at hl
    omega
  rcases @header_cases 0xc0 (by decide) _ hp with
    ⟨hshort, b, hb, heq⟩ | ⟨hlong, hpos, hle, b, hb, heq⟩
  · refine .inl ⟨hshort, b, by simpa using hb, ?_⟩
    rw [encodeList, heq, singleton_append]
  refine .inr ⟨hlong, b, toBytes (payload items).length, hpos, hle,
    by simpa using hb, ofBytes_toBytes _, ?_⟩
  rw [encodeList, heq, cons_append]

end Rlp
