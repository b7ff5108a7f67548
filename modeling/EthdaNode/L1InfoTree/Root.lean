import EthdaNode.L1InfoTree.Tree
import EthdaNode.Support.MerkleTree

/-!
# The root of the L1 info tree

`BuildL1InfoRoot`, and `NewL1InfoTree` followed by calls of `AddLeaf`, compute the root of
the full Merkle tree. The exceptions are a tree of height 0, for which the code returns an
error, and the last leaf of a tree that was built from all the others: then
`ComputeMerkleProof` converts the number of leaves to 0.
-/

namespace EthdaNode.L1InfoTree

open Go MerkleTree List Nat UInt32 Outcome
open Sequencer (Hash)

section
variable {hash : Hash → Hash → Hash}

/-! ## Levels -/

lemma getElem?_zeroHashesFrom {k n j : ℕ} (hj : j ≤ n) :
    (zeroHashesFrom hash (emptyNode hash zeroHash k) n)[j]? =
    some (emptyNode hash zeroHash (k + j)) := by
  induction n generalizing k j with
  | zero =>
    obtain rfl := le_zero.mp hj
    rfl
  | succ n ih =>
    rcases j with _ | j
    · rfl
    have hs := ih (k := k + 1) (le_of_succ_le_succ hj)
    rw [zeroHashesFrom, getElem?_cons_succ]
    rw [add_right_comm] at hs
    exact hs

lemma getElem?_generateZeroHashes {ht : UInt8} {j : ℕ} (hj : j ≤ ht.toNat) :
    (generateZeroHashes hash ht)[j]? = some (emptyNode hash zeroHash j) := by
  have h : (zeroHashesFrom hash (emptyNode hash zeroHash 0) ht.toNat)[j]? =
      some (emptyNode hash zeroHash (0 + j)) := getElem?_zeroHashesFrom hj
  rwa [zero_add] at h

def ZeroHashes (hash : Hash → Hash → Hash) (zeroHashes : List Hash) (h levels : ℕ) : Prop :=
  ∀ j, h ≤ j → j < h + levels → zeroHashes[j]? = some (emptyNode hash zeroHash j)

lemma zeroHashes_generate {ht : UInt8} {h lv : ℕ} (hl : h + lv ≤ ht.toNat) :
    ZeroHashes hash (generateZeroHashes hash ht) h lv :=
  fun _ _ hj => getElem?_generateZeroHashes (hj.le.trans hl)

variable {zs : List Hash} {leaf : ℕ → Hash} {h lv : ℕ} {ls : List Hash}

lemma ZeroHashes.head (hzero : ZeroHashes hash zs h (lv + 1)) :
    zs[h]? = some (emptyNode hash zeroHash h) :=
  hzero h le_rfl (by omega)

lemma ZeroHashes.tail (hzero : ZeroHashes hash zs h (lv + 1)) : ZeroHashes hash zs (h + 1) lv :=
  fun j hj hj' => hzero j (by omega) (by omega)

variable (hash) in
lemma buildNodes_ok (he : ls.length % 2 = 0) :
    ∃ ns, buildIntermediate hash ls = .ok ns ∧ ns.map Node.hash = pairs hash ls := by
  induction ls using pairs.induct with
  | case1 => exact ⟨[], by simp [buildIntermediate], by simp [pairs]⟩
  | case2 a => simp at he
  | case3 left right rest ih =>
    have heven' : rest.length % 2 = 0 := by
      simp only [length_cons] at he
      omega
    obtain ⟨ns, hn, hm⟩ := ih heven'
    refine ⟨⟨hash left right, left, right⟩ :: ns, ?_, ?_⟩
    · rw [buildIntermediate, hn]
      rfl
    · rw [map_cons, hm, pairs]

lemma padLeaves_ok (hzero : zs[h]? = some (emptyNode hash zeroHash h))
    (hl : IsLevel hash zeroHash leaf h ls) : ∃ pd, padLeaves zs h ls = .ok pd ∧ IsLevel hash
    zeroHash leaf h pd ∧ pd.length = ls.length + ls.length % 2 := by
  unfold padLeaves
  split_ifs with ho
  · refine ⟨ls ++ [emptyNode hash zeroHash h], ?_, hl.concat, by simp [ho]⟩
    rw [index_ok_iff.mpr hzero]
    rfl
  · exact ⟨ls, rfl, hl, by omega⟩

variable {pd : List Hash}

lemma buildNodes_level (hl : IsLevel hash zeroHash leaf h pd) (he : pd.length % 2 = 0) : ∃
    ns, buildIntermediate hash pd = .ok ns ∧ IsLevel hash zeroHash leaf (h + 1) (ns.map Node.hash) ∧
    ns.length = pd.length / 2 := by
  obtain ⟨ns, hn, hm⟩ := buildNodes_ok hash he
  refine ⟨ns, hn, hm ▸ hl.pairs he, ?_⟩
  rw [← length_map Node.hash, hm, length_pairs]

lemma nodes_of_level {ns : List Node} (hl : IsLevel hash zeroHash leaf h ls) (hlen : ls.length = 1)
    (hn : ns.map Node.hash = ls) : ∃ node, ns = [node] ∧ node.hash = nodeAt hash leaf h 0 := by
  rw [hl.eq_singleton hlen] at hn
  obtain ⟨node, rest, rfl, hd, hr⟩ := map_eq_cons_iff.mp hn
  rw [map_eq_nil_iff.mp hr]
  exact ⟨node, rfl, hd⟩

lemma half_le_two_pow {n : ℕ} (hn : n ≤ 2 ^ (lv + 1)) : (n + n % 2) / 2 ≤ 2 ^ lv := by
  rw [pow_succ] at hn
  omega

lemma buildLevels_ok (ns : List Node) (hzero : ZeroHashes hash zs h lv)
    (hl : IsLevel hash zeroHash leaf h ls) (hpos : 0 < ls.length) (hlen : ls.length ≤ 2 ^ lv)
    (hs : lv = 0 → ns.map Node.hash = ls) : ∃ node, buildLevels hash zs lv h ns ls = .ok [node] ∧
    node.hash = nodeAt hash leaf (h + lv) 0 := by
  induction lv generalizing h ns ls with
  | zero =>
    obtain ⟨node, rfl, hn⟩ := nodes_of_level hl (by simp at hlen; omega) (hs rfl)
    exact ⟨node, rfl, hn⟩
  | succ lv ih =>
    obtain ⟨pd, ha, hv, hp⟩ := padLeaves_ok hzero.head hl
    obtain ⟨ns', hns', hx, hc⟩ := buildNodes_level hv (by omega)
    obtain ⟨node, hb, hn⟩ := ih ns' hzero.tail hx (by rw [length_map]; omega)
      (by rw [length_map, hc, hp]; exact half_le_two_pow hlen) fun _ => rfl
    refine ⟨node, ?_, by rw [hn, add_right_comm, add_assoc]⟩
    rw [buildLevels, ha, ok_bind, hns', ok_bind, hb]

variable (hash) in
lemma orZeroLeaf_ok (hzero : zs[0]? = some zeroHash) (ls : List Hash) : ∃ first, orZeroLeaf zs ls =
    .ok first ∧ IsLevel hash zeroHash (fun i => ls.getD i zeroHash) 0 first ∧ first.length =
    max ls.length 1 ∧ (ls ≠ [] → first = ls) := by
  unfold orZeroLeaf
  split_ifs with hl
  · obtain rfl := length_eq_zero_iff.mp hl
    refine ⟨[zeroHash], ?_, (isLevel_leaves []).concat, rfl, fun hn => absurd rfl hn⟩
    rw [index_ok_iff.mpr hzero]
    rfl
  · exact ⟨ls, rfl, isLevel_leaves ls, by omega, fun _ => rfl⟩

lemma buildRoot_eq {mt : Tree} (hzero : mt.zeroHashes = generateZeroHashes hash mt.height)
    (hht : 0 < mt.height.toNat) (hlen : ls.length ≤ 2 ^ mt.height.toNat) :
    buildL1InfoRoot hash mt ls = .ok (root hash zeroHash mt.height.toNat ls) := by
  have hp : 0 < 2 ^ mt.height.toNat := Nat.two_pow_pos _
  have hzero0 : mt.zeroHashes[0]? = some zeroHash := by
    rw [hzero]
    exact getElem?_generateZeroHashes (zero_le _)
  obtain ⟨first, hf, hl, hc, -⟩ := orZeroLeaf_ok hash hzero0 ls
  have hz : ZeroHashes hash mt.zeroHashes 0 mt.height.toNat := by
    rw [hzero]
    exact zeroHashes_generate (by omega)
  obtain ⟨node, hb, hn⟩ := buildLevels_ok [] hz hl (by omega)
    (by omega) (by omega)
  rw [buildL1InfoRoot, hf, ok_bind, hb, ok_bind, theRoot, hn, zero_add, root]

variable (hash) in
/-- A sibling of the position `c` at the level `j`: a left one is the node of the tree. -/
def IsSibling (leaf : ℕ → Hash) (c j : ℕ) (sibling : Hash) : Prop :=
  c / 2 ^ j % 2 = 1 → sibling = nodeAt hash leaf j (c / 2 ^ j - 1)

variable {i : UInt32}

lemma uint32_mod_two : i % 2 = 1 ↔ i.toNat % 2 = 1 := by
  rw [← UInt32.toNat_inj, UInt32.toNat_mod]
  rfl

def partner (i : ℕ) : ℕ := if i % 2 = 1 then i - 1 else i + 1

lemma siblingAt_ok (hzero : zs[h]? = some (emptyNode hash zeroHash h))
    (hl : IsLevel hash zeroHash leaf h pd) (he : pd.length % 2 = 0) : ∃ sib, siblingAt zs h i pd =
    .ok sib ∧ (pd.length < 2 ^ 32 → sib = nodeAt hash leaf h (partner i.toNat)) ∧
    (pd.length = 2 ^ 32 → sib = emptyNode hash zeroHash h) := by
  have hi := i.toNat_lt
  have hd := mod_le pd.length (2 ^ 32)
  have hc : i ≥ ofNat pd.length ↔ pd.length % 2 ^ 32 ≤ i.toNat := by
    rw [ge_iff_le, le_iff_toNat_le, toNat_ofNat']
  unfold siblingAt partner
  simp only [hc, uint32_mod_two]
  split_ifs with hg ho ho
  iterate 2
    refine ⟨_, index_ok_iff.mpr hzero, fun hm => ?_, fun _ => rfl⟩
    rw [← hl, getD_eq_default]
    omega
  · have hpos : (1 : UInt32) ≤ i := by
      rw [le_iff_toNat_le]
      exact one_le_iff_ne_zero.mpr fun h0 => by omega
    have hs : (i - 1).toNat = i.toNat - 1 := UInt32.toNat_sub_of_le _ _ hpos
    rw [hs]
    exact ⟨_, index_ok_iff.mpr (hl.getElem? (by omega)), fun _ => rfl, by omega⟩
  have ha : (i + 1).toNat = i.toNat + 1 := by
    rw [UInt32.toNat_add]
    exact Nat.mod_eq_of_lt (by
      have : (1 : UInt32).toNat = 1 := rfl
      omega)
  rw [ha]
  exact ⟨_, index_ok_iff.mpr (hl.getElem? (by omega)), fun _ => rfl, by omega⟩

/-- The loop of `ComputeMerkleProof`: the root, and the siblings. Only the number of the leaves
may be too large for `uint32`. -/
lemma proofLevels_ok (ns : List Node) (hzero : ZeroHashes hash zs h lv)
    (hl : IsLevel hash zeroHash leaf h ls) (hpos : 0 < ls.length) (hlen : ls.length ≤ 2 ^ lv)
    (hns : lv = 0 → ns.map Node.hash = ls) (h32 : ls.length ≤ 2 ^ 32) : ∃ sibs node,
    proofLevels hash zs lv h i ns ls = .ok (sibs, [node]) ∧ node.hash =
    nodeAt hash leaf (h + lv) 0 ∧ sibs.length = lv ∧ ∀ j sib, sibs[j]? = some sib → ((j = 0 →
    ls.length + ls.length % 2 < 2 ^ 32) → sib =
    nodeAt hash leaf (h + j) (partner (i.toNat / 2 ^ j))) ∧ (j = 0 → ls.length + ls.length % 2 =
    2 ^ 32 → sib = emptyNode hash zeroHash h) := by
  induction lv generalizing h ns ls i with
  | zero =>
    obtain ⟨node, rfl, hn⟩ := nodes_of_level hl (by simp at hlen; omega) (hns rfl)
    exact ⟨[], node, rfl, hn, rfl, nofun⟩
  | succ lv ih =>
    obtain ⟨pd, ha, hv, hp⟩ := padLeaves_ok hzero.head hl
    obtain ⟨sib, hi, hn, hlr⟩ := siblingAt_ok (i := i) hzero.head hv (by omega)
    obtain ⟨ns', hns', hx, hc⟩ := buildNodes_level hv (by omega)
    have hd : (i / 2).toNat = i.toNat / 2 := UInt32.toNat_div i 2
    have hcnt' : (ns'.map Node.hash).length = (ls.length + ls.length % 2) / 2 := by
      rw [length_map, hc, hp]
    obtain ⟨sibs, node, hr, hrt, hb, hrs⟩ := ih (i := i / 2) ns' hzero.tail
      hx (by omega) (by rw [hcnt']; exact half_le_two_pow hlen) (fun _ => rfl) (by omega)
    refine ⟨sib :: sibs, node, ?_, ?_, ?_, fun j s hs => ?_⟩
    · rw [proofLevels, ha, ok_bind, hi, ok_bind, hns', ok_bind, hr]
      rfl
    · rw [hrt, add_right_comm, add_assoc]
    · rw [length_cons, hb]
    cases j with
    | zero =>
      cases hs
      rw [pow_zero, Nat.div_one, Nat.add_zero, ← hp]
      exact ⟨fun hm => hn (hm rfl), fun _ => hlr⟩
    | succ j =>
      have hw : i.toNat / 2 ^ (j + 1) = (i / 2).toNat / 2 ^ j := by
        rw [hd, Nat.div_div_eq_div_mul, pow_succ, Nat.mul_comm]
      refine ⟨fun _ => ?_, nofun⟩
      rw [hw]
      have hst := (hrs j s hs).1 fun _ => by omega
      rwa [add_right_comm, add_assoc] at hst

/-- The leaves of a list, with zero hashes after them. -/
def leafOf (leaves : List Hash) (i : ℕ) : Hash := leaves.getD i zeroHash

lemma two_pow_succ_dvd_succ_iff {c : ℕ} :
    2 ^ (h + 1) ∣ c + 1 ↔ 2 ^ h ∣ c + 1 ∧ c / 2 ^ h % 2 = 1 := by
  have hs : (c + 1) / 2 ^ h = c / 2 ^ h + if 2 ^ h ∣ c + 1 then 1 else 0 := Nat.succ_div
  constructor
  · intro hd
    have hdd : 2 ^ h ∣ c + 1 := (pow_dvd_pow 2 (le_succ h)).trans hd
    rw [if_pos hdd] at hs
    have he : 2 ∣ (c + 1) / 2 ^ h := by
      refine dvd_div_of_mul_dvd ?_
      rwa [← pow_succ]
    exact ⟨hdd, by omega⟩
  · rintro ⟨hd, ho⟩
    rw [if_pos hd] at hs
    have he : 2 ∣ (c + 1) / 2 ^ h := by omega
    rw [pow_succ]
    exact mul_dvd_of_dvd_div hd he

lemma leftSibling_le {c : ℕ} (ho : c / 2 ^ h % 2 = 1) : (c / 2 ^ h - 1 + 1) * 2 ^ h ≤ c := by
  have hpos : c / 2 ^ h ≠ 0 := fun h0 => by simp [h0] at ho
  rw [Nat.sub_add_cancel (Nat.one_le_iff_ne_zero.mpr hpos)]
  exact Nat.div_mul_le_self _ _

/-- The sibling of the next position is the old one at a level where the old position is
odd. -/
lemma IsSibling.next {sibling leaf' : Hash} (hs : IsSibling hash (leafOf ls) ls.length h sibling)
    (ho : ls.length / 2 ^ h % 2 = 1) :
    IsSibling hash (leafOf (ls ++ [leaf'])) (ls.length + 1) h sibling := by
  intro hn
  have hc : (ls.length + 1) / 2 ^ h = ls.length / 2 ^ h +
      if 2 ^ h ∣ ls.length + 1 then 1 else 0 := Nat.succ_div
  have hd : ¬2 ^ h ∣ ls.length + 1 := by
    intro hd
    rw [if_pos hd] at hc
    omega
  rw [if_neg hd] at hc
  rw [hs ho, hc, add_zero]
  exact (nodeAt_append (leftSibling_le ho)).symm

variable {leaf' : Hash}

/-- The sibling of the next position is the current node at the level where the subtree is
filled. -/
lemma isSibling_next {filled : Bool} {sibling : Hash} (hf : filled = true ↔ 2 ^ h ∣ ls.length + 1)
    (he : ls.length / 2 ^ h % 2 = 0)
    (hs : filled = true → sibling = nodeAt hash (leafOf (ls ++ [leaf'])) h (ls.length / 2 ^ h)) :
    IsSibling hash (leafOf (ls ++ [leaf'])) (ls.length + 1) h sibling := by
  intro hn
  have hc : (ls.length + 1) / 2 ^ h = ls.length / 2 ^ h +
      if 2 ^ h ∣ ls.length + 1 then 1 else 0 := Nat.succ_div
  by_cases hd : 2 ^ h ∣ ls.length + 1
  · rw [if_pos hd] at hc
    rw [hs (hf.mpr hd), hc, Nat.add_sub_cancel]
  · rw [if_neg hd] at hc
    omega

lemma nodeAt_succ_of_odd (ho : ls.length / 2 ^ h % 2 = 1) : nodeAt hash (leafOf (ls ++ [leaf']))
    (h + 1) (ls.length / 2 ^ (h + 1)) = hash (nodeAt hash (leafOf ls) h (ls.length / 2 ^ h - 1))
    (nodeAt hash (leafOf (ls ++ [leaf'])) h (ls.length / 2 ^ h)) := by
  have hh : ls.length / 2 ^ (h + 1) = ls.length / 2 ^ h / 2 := by
    rw [Nat.div_div_eq_div_mul, pow_succ]
  have hl : 2 * (ls.length / 2 ^ h / 2) = ls.length / 2 ^ h - 1 := by omega
  have hr : 2 * (ls.length / 2 ^ h / 2) + 1 = ls.length / 2 ^ h := by omega
  rw [nodeAt, hh, hr, hl]
  congr 1
  exact nodeAt_append (leftSibling_le ho)

lemma nodeAt_succ_of_even (he : ls.length / 2 ^ h % 2 = 0) : nodeAt hash (leafOf (ls ++ [leaf']))
    (h + 1) (ls.length / 2 ^ (h + 1)) = hash
    (nodeAt hash (leafOf (ls ++ [leaf'])) h (ls.length / 2 ^ h)) (emptyNode hash zeroHash h) := by
  have hh : ls.length / 2 ^ (h + 1) = ls.length / 2 ^ h / 2 := by
    rw [Nat.div_div_eq_div_mul, pow_succ]
  have hl : 2 * (ls.length / 2 ^ h / 2) = ls.length / 2 ^ h := by omega
  rw [nodeAt, hh, hl]
  congr 1
  refine nodeAt_eq_emptyNode fun _ hj => getD_eq_default _ _ (le_trans ?_ hj)
  rw [length_append, length_singleton]
  exact Nat.lt_mul_of_div_lt (Nat.lt_succ_self _) (Nat.two_pow_pos h)

variable {sibs : List Hash}

lemma updateSibling_ok (filled : Bool) (cur : Hash) (hh : h < sibs.length) :
    ∃ siblings', updateSibling filled sibs h cur = .ok siblings' ∧ siblings'.length = sibs.length ∧
    (∀ j, j ≠ h → siblings'[j]? = sibs[j]?) ∧ (filled = true → siblings'[h]? = some cur) := by
  rcases filled with _ | _
  · exact ⟨sibs, rfl, rfl, fun _ _ => rfl, nofun⟩
  refine ⟨sibs.set h cur, if_pos hh, length_set, fun j hj => ?_, fun _ => ?_⟩
  · exact getElem?_set_ne hj.symm
  · exact getElem?_set_self hh

/-- The loop of `AddLeaf` computes the root with the new leaf and the siblings of the next
position. -/
lemma addLevels_ok {cur : Hash} {filled : Bool} (hi : i.toNat = ls.length)
    (hzero : ZeroHashes hash zs h lv) (hlen : h + lv ≤ sibs.length) (hl : ∀ j sibling, h ≤ j →
    sibs[j]? = some sibling → IsSibling hash (leafOf ls) ls.length j sibling) (hn : ∀ j sibling,
    j < h → sibs[j]? = some sibling →
    IsSibling hash (leafOf (ls ++ [leaf'])) (ls.length + 1) j sibling) (hc : cur =
    nodeAt hash (leafOf (ls ++ [leaf'])) h (ls.length / 2 ^ h)) (hfl : filled = true ↔
    2 ^ h ∣ ls.length + 1) : ∃ siblings' cur', addLevels hash zs i lv h sibs cur filled =
    .ok (siblings', cur') ∧ siblings'.length = sibs.length ∧ cur' =
    nodeAt hash (leafOf (ls ++ [leaf'])) (h + lv) (ls.length / 2 ^ (h + lv)) ∧ ∀ j sibling,
    j < h + lv → siblings'[j]? = some sibling → IsSibling hash (leafOf (ls ++ [leaf']))
    (ls.length + 1) j sibling := by
  induction lv generalizing h sibs cur filled with
  | zero => exact ⟨sibs, cur, rfl, rfl, hc, hn⟩
  | succ lv ih =>
    have ha : h + 1 + lv = h + (lv + 1) := by omega
    have hb : i.toNat.testBit h = decide (ls.length / 2 ^ h % 2 = 1) := by
      rw [hi, testBit_eq_decide_div_mod_eq]
    obtain ⟨sibling, hsb⟩ : ∃ sibling, sibs[h]? = some sibling :=
      ⟨_, getElem?_eq_getElem (by omega)⟩
    rw [addLevels, hb]
    by_cases ho : ls.length / 2 ^ h % 2 = 1
    · -- a right child: the sibling is the node on the left
      rw [decide_eq_true ho, if_pos rfl, index_ok_iff.mpr hsb, ok_bind]
      have hsi := hl h sibling le_rfl hsb
      rw [← ha]
      refine ih hzero.tail (by omega) (fun j s hj => hl j s (by omega)) (fun j s hj hs => ?_)
        ?_ ?_
      · rcases Nat.lt_succ_iff_lt_or_eq.mp hj with hlt | rfl
        · exact hn j s hlt hs
        · obtain rfl := Option.mem_unique hsb hs
          exact hsi.next ho
      · rw [hsi ho, hc, nodeAt_succ_of_odd ho]
      · rw [hfl, two_pow_succ_dvd_succ_iff]
        exact (and_iff_left ho).symm
    -- a left child: nothing is on the right
    have he : ls.length / 2 ^ h % 2 = 0 := by omega
    rw [decide_eq_false ho, if_neg Bool.false_ne_true]
    obtain ⟨siblings', hst, hln, hset_ne, hset_eq⟩ :=
      updateSibling_ok filled cur (show h < sibs.length by omega)
    rw [hst, ok_bind, index_ok_iff.mpr hzero.head, ok_bind, ← ha, ← hln]
    refine ih hzero.tail (by omega) (fun j s hj hs => ?_) (fun j s hj hs => ?_) ?_ ?_
    · exact hl j s (by omega) (hset_ne j (by omega) ▸ hs)
    · rcases Nat.lt_succ_iff_lt_or_eq.mp hj with hlt | rfl
      · exact hn j s hlt (hset_ne j (by omega) ▸ hs)
      refine isSibling_next hfl he fun hf => ?_
      rw [← hc]
      exact Option.mem_unique hs (hset_eq hf)
    · rw [hc, nodeAt_succ_of_even he]
    · rw [two_pow_succ_dvd_succ_iff]
      simp [ho]

/-! ## Trees -/

variable (hash) in
structure Represents (mt : Tree) (leaves : List Hash) : Prop where
  zeroHashes : mt.zeroHashes = generateZeroHashes hash mt.height
  count : mt.count = ofNat leaves.length
  root : mt.currentRoot = root hash zeroHash mt.height.toNat leaves
  length : mt.siblings.length = mt.height.toNat

variable (hash) in
def HasSiblings (mt : Tree) (leaves : List Hash) : Prop :=
  ∀ j sibling, mt.siblings[j]? = some sibling →
    IsSibling hash (leafOf leaves) leaves.length j sibling

variable {mt : Tree} {ht : UInt8}

lemma Represents.zeroHashes' (hmt : Represents hash mt ls) :
    ZeroHashes hash mt.zeroHashes 0 mt.height.toNat := by
  rw [hmt.zeroHashes]
  exact zeroHashes_generate (zero_add _).le

lemma toNat_ofNat_of_lt {n : ℕ} (hn : n < 2 ^ 32) : (ofNat n).toNat = n := by
  rw [toNat_ofNat', mod_eq_of_lt hn]

lemma Represents.addLeaf (hmt : Represents hash mt ls) (hb : HasSiblings hash mt ls)
    (hht : mt.height.toNat ≤ 32) (hlen : ls.length < 2 ^ mt.height.toNat) (leaf' : Hash) : ∃ mt',
    addLeaf hash mt (ofNat ls.length) leaf' = .ok (mt', mt'.currentRoot) ∧ mt'.height = mt.height ∧
    Represents hash mt' (ls ++ [leaf']) ∧ HasSiblings hash mt' (ls ++ [leaf']) := by
  have hlt : ls.length < 2 ^ 32 := hlen.trans_le (Nat.pow_le_pow_right two_pos hht)
  have hlf : leaf' = nodeAt hash (leafOf (ls ++ [leaf'])) 0 (ls.length / 2 ^ 0) := by
    simp [nodeAt, leafOf]
  have hf : true = true ↔ 2 ^ 0 ∣ ls.length + 1 := by simp
  obtain ⟨siblings, cur, ha, hl, hc, hn⟩ :=
    addLevels_ok (toNat_ofNat_of_lt hlt) hmt.zeroHashes'
      (by rw [hmt.length, zero_add]) (fun j s _ hs => hb j s hs)
      (fun j _ h => absurd h j.not_lt_zero) hlf hf
  refine ⟨{ mt with siblings := siblings, currentRoot := cur, count := mt.count + 1 }, ?_, rfl,
    ⟨hmt.zeroHashes, ?_, ?_, hl.trans hmt.length⟩, fun j s hs => ?_⟩
  · rw [L1InfoTree.addLeaf, if_neg (not_not.mpr hmt.count.symm), ha]
    rfl
  · rw [length_append, length_singleton, ofNat_add, hmt.count]
    rfl
  · rw [zero_add, div_eq_of_lt hlen] at hc
    exact hc
  have hj := (List.getElem?_eq_some_iff.mp hs).1
  have hi := hn j s (by rw [hl, hmt.length] at hj; omega) hs
  rwa [length_append, length_singleton]

lemma Represents.addLeaves (hmt : Represents hash mt ls) (hs : HasSiblings hash mt ls)
    (hht : mt.height.toNat ≤ 32) {app : List Hash}
    (hlen : ls.length + app.length ≤ 2 ^ mt.height.toNat) : ∃ mt', L1InfoTree.addLeaves hash mt
    mt.currentRoot (ofNat ls.length) app = .ok (mt', mt'.currentRoot) ∧ mt'.height = mt.height ∧
    Represents hash mt' (ls ++ app) := by
  induction app generalizing mt ls with
  | nil =>
    rw [append_nil]
    exact ⟨mt, rfl, rfl, hmt⟩
  | cons leaf' app ih =>
    rw [length_cons] at hlen
    obtain ⟨mt₁, ha, hheight₁, hmt₁, hsibs₁⟩ := hmt.addLeaf hs hht (by omega) leaf'
    have hlen₁ : (ls ++ [leaf']).length + app.length ≤ 2 ^ mt₁.height.toNat := by
      rw [hheight₁, length_append, length_singleton]
      omega
    obtain ⟨mt', hr, hh, hm⟩ := ih hmt₁ hsibs₁ (by rw [hheight₁]; exact hht) hlen₁
    refine ⟨mt', ?_, hh.trans hheight₁, ?_⟩
    · rw [L1InfoTree.addLeaves, ha, ok_bind, ← hr, length_append, length_singleton, ofNat_add]
      rfl
    · rwa [append_assoc, singleton_append] at hm

/-- What `initSiblings` returns: the siblings, but for the first one if the number of leaves with
the added one is too large for `uint32`. -/
structure InitSiblings (hash : Hash → Hash → Hash) (height : ℕ) (leaves siblings : List Hash) :
    Prop where
  length : siblings.length = height
  sibling : ∀ j s, siblings[j]? = some s → (j = 0 → leaves.length + 1 ≠ 2 ^ 32) →
    IsSibling hash (leafOf leaves) leaves.length j s
  first : leaves.length + 1 = 2 ^ 32 → siblings[0]? = some zeroHash

/-- A tree without leaves, or with as many as `uint32` does not hold. -/
lemma initSiblings_zero (hht : 0 < ht.toNat) (hl : ht.toNat ≤ 32)
    (hlen : ls.length ≤ 2 ^ ht.toNat) (hc : ls.length % 2 ^ 32 = 0)
    (hzero : mt.zeroHashes = generateZeroHashes hash mt.height) (hmt : mt.height = ht) :
    ∃ siblings, (do
        let siblings ← (range mt.height.toNat).mapM (index mt.zeroHashes)
        let root ← buildL1InfoRoot hash mt ls
        .ok (siblings, root) : Outcome TreeError (List Hash × Hash)) =
          .ok (siblings, root hash zeroHash ht.toNat ls) ∧
      InitSiblings hash ht.toNat ls siblings := by
  subst hmt
  have hp : (range mt.height.toNat).mapM (index mt.zeroHashes) = (.ok ((range mt.height.toNat).map
      (emptyNode hash zeroHash)) : Outcome TreeError (List Hash)) := by
    refine mapM_eq_ok fun j hj => index_ok_iff.mpr ?_
    rw [hzero]
    exact getElem?_generateZeroHashes (mem_range.mp hj).le
  refine ⟨(range mt.height.toNat).map (emptyNode hash zeroHash), ?_,
    by rw [length_map, length_range], fun j s hs _ ho => ?_, by omega⟩
  · rw [hp, ok_bind, buildRoot_eq hzero hht hlen]
    rfl
  -- the position is 0 or a power of 2 above the tree
  have hj := (List.getElem?_eq_some_iff.mp hs).1
  rw [length_map, length_range] at hj
  have hd : 2 ^ (j + 1) ∣ ls.length := (pow_dvd_pow 2 (by omega)).trans (dvd_of_mod_eq_zero hc)
  obtain ⟨m, hm⟩ := hd
  rw [hm, pow_succ, Nat.mul_assoc, Nat.mul_div_cancel_left _ (Nat.two_pow_pos j),
    Nat.mul_mod_right] at ho
  cases ho

section
variable (hht : 0 < ht.toNat) (hlen : ls.length ≤ 2 ^ ht.toNat)
  (hpos : 0 < ls.length) (hzero : mt.zeroHashes = generateZeroHashes hash mt.height)
  (hmt : mt.height = ht)
include hht hlen hpos hzero hmt

lemma merkleProof_returns (h32 : ls.length ≤ 2 ^ 32) (gi : UInt32) : ∃ sibs,
    computeMerkleProof hash mt gi ls = .ok (sibs, root hash zeroHash ht.toNat ls) ∧ sibs.length =
    ht.toNat ∧ ∀ j s, sibs[j]? = some s → ((j = 0 → ls.length + ls.length % 2 < 2 ^ 32) → s =
    nodeAt hash (leafOf ls) j (partner (gi.toNat / 2 ^ j))) ∧ (j = 0 → ls.length + ls.length % 2 =
    2 ^ 32 → s = zeroHash) := by
  subst hmt
  have hzero0 : mt.zeroHashes[0]? = some zeroHash := by
    rw [hzero]
    exact getElem?_generateZeroHashes (zero_le _)
  obtain ⟨first, hf, hl, -, he⟩ := orZeroLeaf_ok hash hzero0 ls
  obtain rfl := he (length_pos_iff.mp hpos)
  have hz : ZeroHashes hash mt.zeroHashes 0 mt.height.toNat := by
    rw [hzero]
    exact zeroHashes_generate (zero_add _).le
  obtain ⟨sibs, node, hp, hn, hln, hb⟩ :=
    proofLevels_ok (i := gi) [] hz hl hpos hlen (by omega) h32
  refine ⟨sibs, ?_, hln, fun j s hs => ?_⟩
  · rw [computeMerkleProof, hf, ok_bind, hp, ok_bind, theRoot, hn, zero_add]
    rfl
  · have hi := hb j s hs
    rwa [zero_add] at hi

lemma merkleProof_ok (hl : ls.length < 2 ^ 32) : ∃ siblings, computeMerkleProof hash mt
    (ofNat ls.length) ls = .ok (siblings, root hash zeroHash ht.toNat ls) ∧ InitSiblings hash
    ht.toNat ls siblings := by
  obtain ⟨siblings, hp, hn, hb⟩ := merkleProof_returns hht hlen hpos
    hzero hmt hl.le (ofNat ls.length)
  rw [toNat_ofNat_of_lt hl] at hb
  refine ⟨siblings, hp, hn, fun j s hs hm ho => ?_, fun hls => ?_⟩
  · have hi := (hb j s hs).1 fun hj => ?_
    · rwa [partner, if_pos ho] at hi
    · have := hm hj
      omega
  · obtain ⟨s, hs⟩ : ∃ s, siblings[0]? = some s := ⟨_, getElem?_eq_getElem (by omega)⟩
    rw [hs, (hb 0 s hs).2 rfl (by omega)]
end

variable (hash) in
lemma newTree_ok (hht : 0 < ht.toNat) (hl : ht.toNat ≤ 32)
    (hlen : ls.length ≤ 2 ^ ht.toNat) : ∃ mt, newL1InfoTree hash ht ls = .ok mt ∧ mt.height = ht ∧
    Represents hash mt ls ∧ InitSiblings hash ht.toNat ls mt.siblings := by
  have h32 : ls.length ≤ 2 ^ 32 := hlen.trans (Nat.pow_le_pow_right two_pos hl)
  obtain ⟨siblings, hi, hs⟩ : ∃ siblings, initSiblings hash ⟨ht, generateZeroHashes hash ht, ofNat
      ls.length, [], zeroHash⟩ ls = .ok (siblings, root hash zeroHash ht.toNat ls) ∧ InitSiblings
      hash ht.toNat ls siblings := by
    rw [initSiblings, if_neg (not_not.mpr rfl)]
    split_ifs with hc
    · refine initSiblings_zero hht hl hlen ?_ rfl rfl
      have h0 := congrArg toNat hc
      rwa [toNat_ofNat'] at h0
    have hn : ls.length % 2 ^ 32 ≠ 0 := by
      intro h0
      refine hc (UInt32.toNat_inj.mp ?_)
      rw [UInt32.toNat_ofNat', h0]
      rfl
    exact merkleProof_ok hht hlen (by omega) rfl rfl (by omega)
  refine ⟨⟨ht, generateZeroHashes hash ht, ofNat ls.length, siblings, root hash zeroHash ht.toNat
    ls⟩, ?_, rfl, ⟨rfl, rfl, rfl, hs.length⟩, hs⟩
  rw [newL1InfoTree, hi]
  rfl
end

variable (hash : Hash → Hash → Hash)

/-- `NewL1InfoTree` and `AddLeaf` at consecutive indices, and `BuildL1InfoRoot` of all leaves,
return the root of the full Merkle tree. -/
def ComputesRoot (height : UInt8) (initial appended : List Hash) : Prop :=
  ∃ mt mt' r, newL1InfoTree hash height initial = .ok mt ∧
    addLeaves hash mt mt.currentRoot (ofNat initial.length) appended = .ok (mt', r) ∧
    buildL1InfoRoot hash mt' (initial ++ appended) = .ok r ∧
    r = root hash zeroHash height.toNat (initial ++ appended)

lemma InitSiblings.hasSiblings {hash : Hash → Hash → Hash} {mt : Tree} {ls : List Hash}
    (h : InitSiblings hash mt.height.toNat ls mt.siblings)
    (hls : ls.length + 1 = 2 ^ 32 → ls.getLast? = some zeroHash) : HasSiblings hash mt ls := by
  intro j s hs
  by_cases hl : ls.length + 1 = 2 ^ 32
  · cases j with
    | zero =>
      intro _
      cases hs.symm.trans (h.first hl)
      have hzero := hls hl
      rw [getLast?_eq_getElem?] at hzero
      rw [pow_zero, Nat.div_one, nodeAt, leafOf, getD_eq_getElem?_getD, hzero]
      rfl
    | succ j => exact h.sibling _ s hs fun h => by cases h
  · exact h.sibling j s hs fun _ => hl

lemma computesRoot_of_last {ht : UInt8} {ini appended : List Hash} (hht : 0 < ht.toNat)
    (hl : ht.toNat ≤ 32) (hlen : ini.length + appended.length ≤ 2 ^ ht.toNat) (hs : ini.length + 1 =
    2 ^ 32 → appended ≠ [] → ini.getLast? = some zeroHash) : ComputesRoot hash ht ini appended := by
  have hi : ini.length ≤ 2 ^ ht.toNat := by omega
  obtain ⟨mt, hw, rfl, hmt, hin⟩ := newTree_ok hash hht hl hi
  have ha : (ini ++ appended).length ≤ 2 ^ mt.height.toNat := by rwa [length_append]
  by_cases hn : appended = []
  · subst hn
    refine ⟨mt, mt, mt.currentRoot, hw, rfl, ?_⟩
    rw [append_nil] at ha ⊢
    rw [hmt.root]
    exact ⟨buildRoot_eq hmt.zeroHashes hht ha, rfl⟩
  obtain ⟨mt', hd, hh, hm⟩ := hmt.addLeaves (hin.hasSiblings fun h => hs h hn) hl hlen
  refine ⟨mt, mt', mt'.currentRoot, hw, hd, ?_⟩
  rw [hm.root, hh]
  rw [← hh] at hht ha ⊢
  exact ⟨buildRoot_eq hm.zeroHashes hht ha, rfl⟩

/-! ## The last leaf -/

/-- A hash that marks a pair of leaves: `p` on the way from the pair to the root, if the
pair is on the right of the tree, and `q` otherwise. -/
def markHash (v x p q l r : Hash) : Hash :=
  if l = v ∧ r = x then p else if r = p then p else q

section
variable {v x p q : Hash}

lemma markHash_right (hp : p ≠ x) (l : Hash) : markHash v x p q l p = p := by
  rw [markHash, if_neg fun h => hp h.2, if_pos rfl]

lemma markHash_other {l r : Hash} (h : ¬(l = v ∧ r = x)) (hr : r ≠ p) :
    markHash v x p q l r = q := by
  rw [markHash, if_neg h, if_neg hr]

lemma nodeAt_markHash {leaf : ℕ → Hash} {n k : ℕ} (hp : p ≠ x) (hk : k ≤ n)
    (hv : leaf (2 ^ (n + 1) - 2) = v) (hx : leaf (2 ^ (n + 1) - 1) = x) :
    nodeAt (markHash v x p q) leaf (k + 1) (2 ^ (n - k) - 1) = p := by
  induction k with
  | zero =>
    have hw : 2 * (2 ^ n - 1) = 2 ^ (n + 1) - 2 := by rw [pow_succ]; omega
    have hpow' : 2 * (2 ^ n - 1) + 1 = 2 ^ (n + 1) - 1 := by
      have := Nat.two_pow_pos n
      rw [pow_succ]
      omega
    rw [nodeAt, Nat.sub_zero, nodeAt, nodeAt, hpow', hw, hv, hx]
    exact if_pos ⟨rfl, rfl⟩
  | succ k ih =>
    have hw : 2 * (2 ^ (n - (k + 1)) - 1) + 1 = 2 ^ (n - k) - 1 := by
      have hs : n - k = n - (k + 1) + 1 := by omega
      have := Nat.two_pow_pos (n - (k + 1))
      rw [hs, pow_succ]
      omega
    rw [nodeAt, hw, ih (by omega)]
    exact markHash_right hp _

/-- `AddLeaf` at the last position, once the node on the way to the root is `q`. -/
lemma addLevels_markHash {zs sibs : List Hash} {i : UInt32} {h lv : ℕ} {filled : Bool}
    (hq : ∀ l, markHash v x p q l q = q) (hb : ∀ j, h ≤ j → j < h + lv → i.toNat.testBit j = true)
    (hlen : h + lv ≤ sibs.length) : addLevels (markHash v x p q) zs i lv h sibs q filled = .ok
    (sibs, q) := by
  induction lv generalizing h with
  | zero => rfl
  | succ lv ih =>
    obtain ⟨s, hs⟩ : ∃ s, sibs[h]? = some s := ⟨_, getElem?_eq_getElem (by omega)⟩
    rw [addLevels, hb h le_rfl (by omega), if_pos rfl, index_ok_iff.mpr hs, ok_bind, hq]
    exact ih (fun j hj hj' => hb j (by omega) (by omega)) (by omega)

/-- The last leaf of a tree that was built from all the others: `AddLeaf` takes the zero
hash for its sibling. -/
lemma addLeaves_last {ini : List Hash} (hlen : ini.length + 1 = 2 ^ 32)
    (hl : ini.getLast? = some v) (hv : v ≠ zeroHash) (hp : p ≠ x) (hq : q ≠ x) (hpq : q ≠ p) : ∃ mt
    mt', newL1InfoTree (markHash v x p q) 32 ini = .ok mt ∧ addLeaves (markHash v x p q) mt
    mt.currentRoot (ofNat ini.length) [x] = .ok (mt', q) ∧ buildL1InfoRoot (markHash v x p q) mt'
    (ini ++ [x]) = .ok p ∧ root (markHash v x p q) zeroHash 32 (ini ++ [x]) = p := by
  have h32 : (32 : UInt8).toNat = 32 := rfl
  have hi : ini.length ≤ 2 ^ (32 : UInt8).toNat := by
    rw [h32]
    omega
  have ha : (ini ++ [x]).length ≤ 2 ^ (32 : UInt8).toNat := by
    rw [length_append, length_singleton, hlen]
    rfl
  obtain ⟨mt, hn, hh, hmt, hin⟩ :=
    newTree_ok (markHash v x p q) (by decide) (by decide) hi
  have hr : root (markHash v x p q) zeroHash 32 (ini ++ [x]) = p := by
    refine nodeAt_markHash (n := 31) hp le_rfl ?_ ?_
    · have hw : 2 ^ (31 + 1) - 2 = ini.length - 1 := by omega
      rw [hw, getD_append _ _ _ _ (by omega), getD_eq_getElem?_getD, ← getLast?_eq_getElem?, hl]
      rfl
    have hw : 2 ^ (31 + 1) - 1 = ini.length := by omega
    rw [hw, getD_append_right _ _ _ _ le_rfl, Nat.sub_self]
    rfl
  have hb : ∀ j, j < 32 → (ofNat ini.length).toNat.testBit j = true := by
    intro j hj
    have hw : ini.length = 2 ^ 32 - 1 := by omega
    rw [toNat_ofNat_of_lt (by omega), hw, testBit_two_pow_sub_one, decide_eq_true hj]
  have hln : mt.siblings.length = 32 := by rw [hmt.length, hh, h32]
  have hd : addLevels (markHash v x p q) mt.zeroHashes (ofNat ini.length)
      mt.height.toNat 0 mt.siblings x true = .ok (mt.siblings, q) := by
    rw [hh, h32, addLevels, hb 0 (by omega), if_pos rfl,
      index_ok_iff.mpr (hin.first hlen), ok_bind,
      markHash_other (fun h => hv h.1.symm) hp.symm]
    exact addLevels_markHash (fun l => markHash_other (fun h => hq h.2) hpq)
      (fun j _ hj => hb j (by omega)) (by omega)
  let mt' : Tree := { mt with currentRoot := q, count := mt.count + 1 }
  have hmt' : mt'.height = 32 := hh
  have hzero : mt'.zeroHashes = generateZeroHashes (markHash v x p q) mt'.height := hmt.zeroHashes
  refine ⟨mt, mt', hn, ?_, ?_, hr⟩
  · rw [addLeaves, addLeaf, if_neg (not_not.mpr hmt.count.symm), hd]
    rfl
  · rw [← hmt'] at ha
    rw [buildRoot_eq hzero (by rw [hmt']; decide) ha, hmt', h32, hr]
end

def byteHash (b : UInt8) : Hash := ⟨replicate 32 b, length_replicate⟩

lemma exists_two_ne (x : Hash) : ∃ p q : Hash, p ≠ x ∧ q ≠ x ∧ q ≠ p := by
  by_cases h0 : byteHash 0 = x
  · subst h0
    exact ⟨byteHash 1, byteHash 2, by decide, by decide, by decide⟩
  by_cases h1 : byteHash 1 = x
  · subst h1
    exact ⟨byteHash 0, byteHash 2, by decide, by decide, by decide⟩
  · exact ⟨byteHash 0, byteHash 1, h0, h1, by decide⟩

lemma newL1InfoTree_height_zero (ini : List Hash) :
    newL1InfoTree hash 0 ini = .err .moreThanOneRoot := by
  have hzero : (generateZeroHashes hash 0)[0]? = some zeroHash := rfl
  obtain ⟨first, hf, -⟩ := orZeroLeaf_ok hash hzero ini
  rw [newL1InfoTree, initSiblings, if_neg (not_not.mpr rfl)]
  split_ifs
  · rw [buildL1InfoRoot, hf]
    rfl
  · rw [computeMerkleProof, hf]
    rfl

/-- For every hash function the tree computes the root exactly if its height is not 0 and no leaf is
added after `2 ^ 32 - 1` initial ones of which the last one is not the zero hash. -/
theorem computesRoot_iff {height : UInt8} {initial appended : List Hash} (hle : height.toNat ≤ 32)
    (hlen : initial.length + appended.length ≤ 2 ^ height.toNat) :
    (∀ hash, ComputesRoot hash height initial appended) ↔ 0 < height.toNat ∧
    (initial.length + 1 = 2 ^ 32 → appended ≠ [] → initial.getLast? = some zeroHash) := by
  constructor
  · intro h
    have hhg : 0 < height.toNat := by
      rw [pos_iff_ne_zero]
      intro h0
      obtain rfl : height = 0 := UInt8.toNat_inj.mp h0
      obtain ⟨mt, -, -, hnw, -⟩ := h fun l _ => l
      rw [newL1InfoTree_height_zero] at hnw
      cases hnw
    refine ⟨hhg, fun hlr hne => ?_⟩
    by_contra hls
    have hpos := length_pos_iff.mpr hne
    obtain rfl : height = 32 := by
      have hpw : 2 ^ 32 ≤ 2 ^ height.toNat := by omega
      have hge := (Nat.pow_le_pow_iff_right (Nat.one_lt_two)).mp hpw
      exact UInt8.toNat_inj.mp (Nat.le_antisymm hle hge)
    have h32 : (32 : UInt8).toNat = 32 := rfl
    rw [h32] at hlen
    obtain ⟨x, rfl⟩ := length_eq_one_iff.mp (show appended.length = 1 by omega)
    obtain ⟨v, hv⟩ : ∃ v, initial.getLast? = some v := by
      refine ⟨_, getLast?_eq_some_getLast ?_⟩
      exact length_pos_iff.mp (by omega)
    rw [hv] at hls
    obtain ⟨p, q, hp, hq, hpq⟩ := exists_two_ne x
    obtain ⟨mt, mt', hnw, had, -, hrt⟩ :=
      addLeaves_last hlr hv (fun h0 => hls (by rw [h0])) hp hq hpq
    obtain ⟨mt₁, mt₁', r, hnew₁, hadd₁, -, hr⟩ := h (markHash v x p q)
    cases hnw.symm.trans hnew₁
    cases had.symm.trans hadd₁
    exact hpq (hr.trans hrt)
  · rintro ⟨hhg, hls⟩ hash
    exact computesRoot_of_last hash hhg hle hlen hls

/-- All leaves but the last one of a tree of height 32. -/
def manyLeaves : List Hash := replicate (2 ^ 32 - 1) (byteHash 1)

/-- A tree of height 0 has no root, and the root is wrong if a leaf is added to a tree of height 32
built from all the other leaves. -/
theorem addLeaf_wrong_root : (∀ hash, newL1InfoTree hash 0 [] = .err .moreThanOneRoot) ∧
    ∃ hash mt mt' r r', newL1InfoTree hash 32 manyLeaves = .ok mt ∧
    addLeaves hash mt mt.currentRoot (ofNat manyLeaves.length) [byteHash 1] = .ok (mt', r) ∧
    buildL1InfoRoot hash mt' (manyLeaves ++ [byteHash 1]) = .ok r' ∧ r ≠ r' := by
  have hlen : manyLeaves.length + 1 = 2 ^ 32 := by
    rw [manyLeaves, length_replicate, Nat.sub_add_cancel Nat.one_le_two_pow]
  have hls : manyLeaves.getLast? = some (byteHash 1) := by
    rw [manyLeaves, getLast?_replicate, if_neg (by decide)]
  obtain ⟨mt, mt', hn, had, hb, -⟩ := addLeaves_last (x := byteHash 1) (p := byteHash 2)
    (q := byteHash 3) hlen hls (by decide) (by decide) (by decide) (by decide)
  exact ⟨fun hash => newL1InfoTree_height_zero hash [], _, mt, mt', _, _, hn, had, hb, by decide⟩

/-- Three leaves in a tree of height 2. -/
theorem computesRoot_iff_three :
    ComputesRoot (fun left _ => left) 2 [byteHash 1] [byteHash 2, byteHash 3] :=
  (computesRoot_iff (by decide) (by decide)).mpr ⟨by decide, by decide⟩ _

/-- The root to which the siblings lead from a node. -/
def foldProof (hash : Hash → Hash → Hash) : ℕ → Hash → List Hash → Hash
  | _, node, [] => node
  | i, node, sibling :: siblings => foldProof hash (i / 2)
      (if i % 2 = 1 then hash sibling node else hash node sibling) siblings

structure ProofCall where
  height : UInt8
  leaves : List Hash
  gerIndex : UInt32
  height_le : height.toNat ≤ 32
  leaves_pos : 0 < leaves.length
  leaves_le : leaves.length ≤ 2 ^ height.toNat
  gerIndex_lt : gerIndex.toNat < 2 ^ height.toNat

/-- The siblings lead from the leaf to the root, which is that of `BuildL1InfoRoot`. -/
def ProofCall.Proves (c : ProofCall) (hash : Hash → Hash → Hash) : Prop :=
  ∀ mt : Tree, mt.height = c.height → mt.zeroHashes = generateZeroHashes hash mt.height →
    ∃ siblings r, computeMerkleProof hash mt c.gerIndex c.leaves = .ok (siblings, r) ∧
      siblings.length = c.height.toNat ∧
      foldProof hash c.gerIndex.toNat (leafOf c.leaves c.gerIndex.toNat) siblings = r ∧
      buildL1InfoRoot hash mt c.leaves = .ok r

lemma foldProof_eq {hash : Hash → Hash → Hash} {leaf : ℕ → Hash} {k i : ℕ} {sibs : List Hash}
    (h : ∀ j s, sibs[j]? = some s → s = nodeAt hash leaf (k + j) (partner (i / 2 ^ j))) :
    foldProof hash i (nodeAt hash leaf k i) sibs =
    nodeAt hash leaf (k + sibs.length) (i / 2 ^ sibs.length) := by
  induction sibs generalizing k i with
  | nil => rw [foldProof, length_nil, pow_zero, Nat.div_one, Nat.add_zero]
  | cons s sibs ih =>
    have hs := h 0 s rfl
    rw [pow_zero, Nat.div_one, Nat.add_zero, partner] at hs
    have hp : (if i % 2 = 1 then hash s (nodeAt hash leaf k i)
        else hash (nodeAt hash leaf k i) s) = nodeAt hash leaf (k + 1) (i / 2) := by
      rw [nodeAt, hs]
      split_ifs with ho
      · rw [show 2 * (i / 2) = i - 1 by omega, show i - 1 + 1 = i by omega]
      · rw [show 2 * (i / 2) = i by omega]
    rw [foldProof, hp, ih fun j s hs => ?_, length_cons, Nat.div_div_eq_div_mul, ← pow_succ',
      Nat.add_assoc, Nat.add_comm 1]
    have hst := h (j + 1) s hs
    rwa [pow_succ', ← Nat.div_div_eq_div_mul, ← Nat.add_assoc, Nat.add_right_comm] at hst

namespace ProofCall

variable (c : ProofCall)

lemma computeMerkleProof_proves (hh : 0 < c.height.toNat)
    (hlen : c.leaves.length + c.leaves.length % 2 < 2 ^ 32) (hash : Hash → Hash → Hash) :
    c.Proves hash := by
  intro mt hmt hzero
  obtain ⟨siblings, hp, hl, hb⟩ := merkleProof_returns hh c.leaves_le
    c.leaves_pos hzero hmt (by omega) c.gerIndex
  refine ⟨siblings, _, hp, hl, ?_, ?_⟩
  · have hf := @foldProof_eq hash (leafOf c.leaves) 0 c.gerIndex.toNat siblings fun j s hs => ?_
    · rwa [hl, div_eq_of_lt c.gerIndex_lt, zero_add] at hf
    · rw [zero_add]
      exact (hb j s hs).1 fun _ => hlen
  · rw [← hmt] at hh
    rw [buildRoot_eq hzero hh (hmt ▸ c.leaves_le), hmt]

/-- The proof is right unless the height is 0 or the number of the leaves is too large for
`uint32`. -/
theorem proves_of_pos (hheight : 0 < c.height.toNat)
    (hlen : c.leaves.length + c.leaves.length % 2 < 2 ^ 32) (hash : Hash → Hash → Hash) :
    c.Proves hash :=
  c.computeMerkleProof_proves hheight hlen hash

/-- The zero leaf after a single leaf. -/
theorem proves_of_pos_single :
    Proves ⟨1, [byteHash 1], 1, by decide, by decide, by decide, by decide⟩ fun left _ => left :=
  proves_of_pos _ (by decide) (by decide) _

/-- A tree of height 0 has no root. -/
theorem not_proves_height_zero : ∃ (c : ProofCall) (hash : Hash → Hash → Hash), ¬c.Proves hash := by
  refine ⟨⟨0, [zeroHash], 0, by decide, by decide, by decide, by decide⟩, fun l _ => l,
    fun h => ?_⟩
  obtain ⟨_, _, hpr, -⟩ := h ⟨0, generateZeroHashes (fun l _ => l) 0, 0, [], zeroHash⟩ rfl rfl
  cases hpr

end ProofCall

end EthdaNode.L1InfoTree
