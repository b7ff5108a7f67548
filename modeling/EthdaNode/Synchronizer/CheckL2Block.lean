import EthdaNode.Sequencer.TxTracker

/-!
# The check of the hashes of L2 blocks

`CheckL2Block` compares an L2 block with the one of the trusted node. It is called after each
batch and compares the last local L2 block, if its number is a multiple of the modulus that has
not been compared yet. A multiple that is not the number of the last block at any call is
passed over.
-/

namespace EthdaNode.Synchronizer.CheckL2Block

open List

open Sequencer (Hash plainHash)

structure BlockHashes where
  hash : Hash
  parentHash : Hash
  deriving DecidableEq

/-- `missing` stands for `ErrNotFound` and `ErrStateNotSynchronized`. -/
inductive CheckError where
  | missing
  | state
  | hash
  | parentHash
  deriving DecidableEq

/-- What a call of `CheckL2Block` gets; `none` is an error of the trusted node. -/
structure Lookups where
  getLastL2BlockNumber : Except CheckError UInt64
  getL2BlockByNumber : UInt64 → Except CheckError BlockHashes
  blockByNumber : UInt64 → Option BlockHashes

/-- `CheckL2BlockHash`, and the numbers of the L2 blocks that it has compared. -/
structure Checker where
  lastL2BlockChecked : UInt64
  modulusL2BlockToCheck : UInt64
  compared : List UInt64

namespace Checker

variable (p : Checker)

def getMinimumL2BlockToCheck : UInt64 :=
  if p.modulusL2BlockToCheck = 0 then p.lastL2BlockChecked + 1
  else (p.lastL2BlockChecked / p.modulusL2BlockToCheck + 1) * p.modulusL2BlockToCheck

def getNextL2BlockToCheck (lastLocalL2BlockNumber minL2BlockNumberToCheck : UInt64) :
    Option UInt64 :=
  let l2BlockNumber := max minL2BlockNumberToCheck lastLocalL2BlockNumber
  if l2BlockNumber > lastLocalL2BlockNumber then none
  else if l2BlockNumber % p.modulusL2BlockToCheck ≠ 0 then none
  else some l2BlockNumber

/-- `compareL2Blocks`, and the number that is kept after it. -/
def compareL2Blocks (n : UInt64) (localL2Block trustedL2Block : BlockHashes) :
    Checker × Except CheckError Unit :=
  let p := { p with compared := p.compared ++ [n] }
  if localL2Block.hash ≠ trustedL2Block.hash then (p, .error .hash)
  else if localL2Block.parentHash ≠ trustedL2Block.parentHash then (p, .error .parentHash)
  else ({ p with lastL2BlockChecked := n }, .ok ())

def iterationCheckL2Block (x : Lookups) (p : Checker) (n : UInt64) :
    Checker × Except CheckError Unit :=
  match x.getL2BlockByNumber n, x.blockByNumber n with
  | .error .missing, _ => (p, .ok ())
  | .error e, _ => (p, .error e)
  | .ok _, none => (p, .ok ())
  | .ok localL2Block, some trustedL2Block => p.compareL2Blocks n localL2Block trustedL2Block

def checkL2Block (x : Lookups) (p : Checker) : Checker × Except CheckError Unit :=
  match x.getLastL2BlockNumber with
  | .error .missing => (p, .ok ())
  | .error e => (p, .error e)
  | .ok last =>
    match p.getNextL2BlockToCheck last p.getMinimumL2BlockToCheck with
    | none => (p, .ok ())
    | some l2BlockNumber => p.iterationCheckL2Block x l2BlockNumber

end Checker

/-! ## Runs -/

/-- Calls of `CheckL2Block` whose lookups succeed, with the last local numbers that they see. -/
structure Run where
  initial : UInt64
  modulus : UInt64
  positive : 0 < modulus
  localBlock : UInt64 → BlockHashes
  trustedBlock : UInt64 → BlockHashes
  seen : List UInt64
  ordered : seen.Pairwise (· ≤ ·)

namespace Run

variable (x : Run)

def lookups (last : UInt64) : Lookups :=
  ⟨.ok last, fun n => .ok (x.localBlock n), fun n => some (x.trustedBlock n)⟩

def after (numbers : List UInt64) : Checker :=
  numbers.foldl (fun p last => (p.checkL2Block (x.lookups last)).1) ⟨x.initial, x.modulus, []⟩

/-- A multiple of the modulus above the initial block and up to the last local number. -/
def Due (n : UInt64) : Prop :=
  x.initial < n ∧ n % x.modulus = 0 ∧ ∃ last ∈ x.seen.getLast?, n ≤ last

variable {x} {p : Checker} {last : UInt64} {ns : List UInt64}

lemma getNextL2BlockToCheck_eq (p : Checker) (last min : UInt64) :
    p.getNextL2BlockToCheck last min =
    if min ≤ last ∧ last % p.modulusL2BlockToCheck = 0 then some last else none := by
  have hx : max min last = if min ≤ last then last else min := rfl
  rw [Checker.getNextL2BlockToCheck, hx]
  by_cases hl : min ≤ last
  · by_cases hm : last % p.modulusL2BlockToCheck = 0 <;> simp [hl, hm]
  · simp [hl, UInt64.not_le.mp hl]

/-- A multiple above the last checked number is not below the next one to check. -/
lemma minimum_le {checked n m : UInt64} (hm : 0 < m) (ht : checked < n) (hn : n % m = 0) :
    (checked / m + 1) * m ≤ n := by
  have hp : 0 < m.toNat := UInt64.lt_iff_toNat_lt.mp hm
  have hd : m.toNat ∣ n.toNat := Nat.dvd_of_mod_eq_zero
    ((UInt64.toNat_mod n m).symm.trans (congrArg UInt64.toNat hn))
  have hi : checked.toNat / m.toNat < n.toNat / m.toNat :=
    Nat.div_lt_div_of_lt_of_dvd hd (UInt64.lt_iff_toNat_lt.mp ht)
  have hl : (checked.toNat / m.toNat + 1) * m.toNat ≤ n.toNat :=
    (Nat.mul_le_mul_right _ hi).trans (Nat.div_mul_le_self _ _)
  have ho : checked.toNat / m.toNat + 1 < 2 ^ 64 :=
    ((Nat.le_mul_of_pos_right _ hp).trans hl).trans_lt n.toNat_lt
  rw [UInt64.le_iff_toNat_le, UInt64.toNat_mul, UInt64.toNat_add, UInt64.toNat_div,
    UInt64.toNat_one, Nat.mod_eq_of_lt ho, Nat.mod_eq_of_lt (hl.trans_lt n.toNat_lt)]
  exact hl

/-- What was compared was seen, and every multiple seen above the initial block was compared. -/
structure Inv (x : Run) (numbers : List UInt64) (p : Checker) : Prop where
  modulus : p.modulusL2BlockToCheck = x.modulus
  seen : ∀ n ∈ p.compared, n ∈ numbers
  checked : p.lastL2BlockChecked = x.initial ∨ p.lastL2BlockChecked ∈ p.compared
  compared : ∀ n ∈ numbers, x.initial < n → n % x.modulus = 0 → n ∈ p.compared

/-- A number that is passed over is below the next one to check, and so it was compared. -/
lemma Inv.passOver (h : Inv x ns p) (he : ∀ n ∈ ns, n ≤ last) (ha : last % x.modulus = 0 →
    ¬ p.getMinimumL2BlockToCheck ≤ last) : Inv x (ns ++ [last]) p := by
  refine ⟨h.modulus, fun n hn => mem_append_left _ (h.seen n hn), h.checked, ?_⟩
  intro n hn hi hm
  rcases mem_append.mp hn with hn | hn
  · exact h.compared n hn hi hm
  obtain rfl := mem_singleton.mp hn
  have hc : ¬ p.lastL2BlockChecked < n := by
    intro hl
    have hp := ha hm
    rw [Checker.getMinimumL2BlockToCheck, h.modulus,
      if_neg (UInt64.ne_of_lt x.positive).symm] at hp
    exact hp (minimum_le x.positive hl hm)
  rcases h.checked with ht | hmm
  · exact absurd (ht ▸ hi) hc
  · rwa [UInt64.le_antisymm (UInt64.not_lt.mp hc) (he _ (h.seen _ hmm))]

lemma Inv.compare (h : Inv x ns p) (localL2Block trustedL2Block : BlockHashes) :
    Inv x (ns ++ [last]) (p.compareL2Blocks last localL2Block trustedL2Block).1 := by
  have hp : Inv x (ns ++ [last]) { p with compared := p.compared ++ [last] } := by
    refine ⟨h.modulus, fun n hn => ?_, h.checked.imp_right (mem_append_left _), ?_⟩
    · exact mem_append.mpr ((mem_append.mp hn).imp_left (h.seen n))
    · intro n hn hi hm
      exact mem_append.mpr ((mem_append.mp hn).imp_left fun hn => h.compared n hn hi hm)
  rw [Checker.compareL2Blocks]
  split_ifs
  · exact hp
  · exact hp
  · exact ⟨hp.modulus, hp.seen, .inr (by simp), hp.compared⟩

lemma inv_after (h : ns.Pairwise (· ≤ ·)) : Inv x ns (x.after ns) := by
  induction ns using List.reverseRecOn with
  | nil => exact ⟨rfl, nofun, .inl rfl, nofun⟩
  | append_singleton ns last ih =>
    obtain ⟨hm, -, hl⟩ := pairwise_append.mp h
    have hi := ih hm
    rw [after, foldl_append, ← after, foldl_cons, foldl_nil, lookups, Checker.checkL2Block]
    dsimp only
    rw [getNextL2BlockToCheck_eq, hi.modulus]
    split_ifs with hx
    · exact hi.compare _ _
    · refine hi.passOver (fun n hn => hl n hn last (mem_singleton_self _)) ?_
      exact fun hd hmn => hx ⟨hmn, hd⟩

/-- Every multiple that is due was compared exactly if every one of them was the last local
number at some call. -/
theorem compared_due_iff_seen (x : Run) :
    (∀ n, x.Due n → n ∈ (x.after x.seen).compared) ↔ ∀ n, x.Due n → n ∈ x.seen := by
  have hi : Inv x x.seen (x.after x.seen) := inv_after x.ordered
  constructor
  · intro h n hd
    exact hi.seen n (h n hd)
  · intro h n hd
    exact hi.compared n (h n hd) hd.1 hd.2.1

def plainBlock : BlockHashes := ⟨plainHash 1, plainHash 0⟩

/-- The number of the last block goes from 9 to 11, and block 10 is not compared. -/
theorem multiple_passed_over : ∃ x : Run, x.modulus = 10 ∧ x.seen = [9, 11] ∧ x.Due 10 ∧
    10 ∉ (x.after x.seen).compared :=
  ⟨⟨0, 10, by decide, fun _ => plainBlock, fun _ => plainBlock, [9, 11], by decide⟩, rfl, rfl,
    ⟨by decide, by decide, 11, rfl, by decide⟩, by decide⟩

end Run

end EthdaNode.Synchronizer.CheckL2Block
