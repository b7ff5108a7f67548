import Mathlib.Data.List.GetD
import Mathlib.Tactic.Ring

/-!
# Binary Merkle trees

The nodes of a binary Merkle tree over a sequence of leaves, by level and position, and
the lists of nodes from which the next level is computed.
-/

namespace MerkleTree

open List

variable {α : Type}

/-- The node at the position `i` of the level `k`. -/
def nodeAt (node : α → α → α) (leaf : ℕ → α) : ℕ → ℕ → α
  | 0, i => leaf i
  | k + 1, i => node (nodeAt node leaf k (2 * i)) (nodeAt node leaf k (2 * i + 1))

/-- The node of the level `k` over leaves that are missing. -/
def emptyNode (node : α → α → α) (zero : α) : ℕ → α
  | 0 => zero
  | k + 1 => node (emptyNode node zero k) (emptyNode node zero k)

variable (node : α → α → α)

/-- The root of the full tree of the height `h`; the missing leaves are `zero`. -/
def root (zero : α) (h : ℕ) (leaves : List α) : α := nodeAt node (fun i => leaves.getD i zero) h 0

def pairs (node : α → α → α) : List α → List α
  | [] => []
  | [_] => []
  | left :: right :: rest => node left right :: pairs node rest

section
variable {node : α → α → α} {leaf leaf' : ℕ → α} {zero : α} {k i : ℕ}

lemma nodeAt_congr (h : ∀ j, i * 2 ^ k ≤ j → j < (i + 1) * 2 ^ k → leaf j = leaf' j) :
    nodeAt node leaf k i = nodeAt node leaf' k i := by
  induction k generalizing i with
  | zero => exact h i (by simp) (by simp)
  | succ k ih =>
    have hi : i * 2 ^ (k + 1) = 2 * i * 2 ^ k := by ring
    have hi' : (i + 1) * 2 ^ (k + 1) = (2 * i + 1 + 1) * 2 ^ k := by ring
    have hm : 2 * i * 2 ^ k + 2 ^ k = (2 * i + 1) * 2 ^ k := by ring
    have hmid' : (2 * i + 1) * 2 ^ k + 2 ^ k = (2 * i + 1 + 1) * 2 ^ k := by ring
    rw [hi, hi'] at h
    rw [nodeAt, nodeAt, ih fun j hj hj' => h j hj (by omega), ih fun j hj hj' => h j (by omega) hj']

lemma nodeAt_eq_emptyNode (h : ∀ j, i * 2 ^ k ≤ j → leaf j = zero) :
    nodeAt node leaf k i = emptyNode node zero k := by
  induction k generalizing i with
  | zero => exact h i (by simp)
  | succ k ih =>
    have hi : i * 2 ^ (k + 1) = 2 * i * 2 ^ k := by ring
    have hm : 2 * i * 2 ^ k + 2 ^ k = (2 * i + 1) * 2 ^ k := by ring
    rw [hi] at h
    rw [nodeAt, emptyNode, ih h, ih fun j hj => h j ((Nat.le_add_right _ _).trans (hm.trans_le hj))]

lemma nodeAt_append {leaves leaves' : List α} (h : (i + 1) * 2 ^ k ≤ leaves.length) :
    nodeAt node (fun j => (leaves ++ leaves').getD j zero) k i =
    nodeAt node (fun j => leaves.getD j zero) k i :=
  nodeAt_congr fun _ _ hj => getD_append _ _ _ _ (hj.trans_le h)
end

/-! ## Levels -/

/-- The list has the nodes of the level `k`, and after it there are only empty ones. -/
def IsLevel (zero : α) (leaf : ℕ → α) (k : ℕ) (nodes : List α) : Prop :=
  ∀ i, nodes.getD i (emptyNode node zero k) = nodeAt node leaf k i

section
variable {node : α → α → α} {leaf : ℕ → α} {zero : α} {k : ℕ} {nodes : List α}

lemma isLevel_leaves (leaves : List α) : IsLevel node zero (fun i => leaves.getD i zero) 0 leaves :=
  fun _ => rfl

lemma IsLevel.concat (h : IsLevel node zero leaf k nodes) :
    IsLevel node zero leaf k (nodes ++ [emptyNode node zero k]) := by
  intro i
  rw [← h i]
  rcases Nat.lt_or_ge i nodes.length with hi | hi
  · exact getD_append _ _ _ _ hi
  rw [getD_append_right _ _ _ _ hi, getD_eq_default nodes _ hi]
  cases i - nodes.length with
  | _ => rfl

lemma getD_pairs (d : α) (he : nodes.length % 2 = 0) (i : ℕ) : (pairs node nodes).getD i
    (node d d) = node (nodes.getD (2 * i) d) (nodes.getD (2 * i + 1) d) := by
  induction nodes using pairs.induct generalizing i with
  | case1 => rfl
  | case2 a => simp at he
  | case3 left right rest ih =>
    have heven' : rest.length % 2 = 0 := by
      simp only [length_cons] at he
      omega
    rcases i with _ | i
    · rfl
    have hl : 2 * (i + 1) = 2 * i + 1 + 1 := by ring
    rw [pairs, getD_cons_succ, ih heven', hl]
    rfl

lemma length_pairs (nodes : List α) : (pairs node nodes).length = nodes.length / 2 := by
  induction nodes using pairs.induct with
  | case1 => simp [pairs]
  | case2 a => simp [pairs]
  | case3 left right rest ih =>
    rw [pairs, length_cons, ih, length_cons, length_cons]
    omega

section
variable (h : IsLevel node zero leaf k nodes)
include h

lemma IsLevel.pairs (he : nodes.length % 2 = 0) :
    IsLevel node zero leaf (k + 1) (pairs node nodes) := by
  intro i
  rw [emptyNode, getD_pairs _ he, h, h, nodeAt]

lemma IsLevel.eq_singleton (hl : nodes.length = 1) : nodes = [nodeAt node leaf k 0] := by
  obtain ⟨a, rfl⟩ := length_eq_one_iff.mp hl
  rw [← h 0]
  rfl

lemma IsLevel.getElem? {i : ℕ} (hi : i < nodes.length) :
    nodes[i]? = some (nodeAt node leaf k i) := by
  rw [← h i, getD_eq_getElem _ _ hi, List.getElem?_eq_getElem hi]
end

end

end MerkleTree
