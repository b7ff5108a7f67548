import EthdaNode.Sequencer.TxTracker

/-!
# The L1 info tree

The Merkle tree of the exit roots: the whole root from a list of leaves, and the tree that
keeps one sibling for each level and adds leaves one by one. The keccak hash of two hashes
is a parameter. What is only logged or printed in an error is left out.
-/

namespace EthdaNode.L1InfoTree

open Go
open Sequencer (Hash)

def zeroHash : Hash := ⟨List.replicate 32 0, State.zeros32⟩

inductive TreeError where
  | mismatchedLeafCount (index expected : UInt32)
  | moreThanOneRoot
  | lengthMismatch
  deriving DecidableEq

structure Node where
  hash : Hash
  left : Hash
  right : Hash

structure Tree where
  height : UInt8
  zeroHashes : List Hash
  count : UInt32
  siblings : List Hash
  currentRoot : Hash

section
variable (hash : Hash → Hash → Hash)

def zeroHashesFrom (zero : Hash) : ℕ → List Hash
  | 0 => [zero]
  | n + 1 => zero :: zeroHashesFrom (hash zero zero) n

def generateZeroHashes (height : UInt8) : List Hash := zeroHashesFrom hash zeroHash height.toNat

/-- `buildIntermediate`; the hashes of the next level are those of the nodes. -/
def buildIntermediate : List Hash → Outcome TreeError (List Node)
  | [] => .ok []
  | [_] => .panic
  | left :: right :: rest => do
      let nodes ← buildIntermediate rest
      .ok (⟨hash left right, left, right⟩ :: nodes)

variable (zeroHashes : List Hash)

/-- A level with an odd number of hashes gets a zero hash. -/
def padLeaves (h : ℕ) (leaves : List Hash) : Outcome TreeError (List Hash) :=
  if leaves.length % 2 = 1 then do
    let zero ← index zeroHashes h
    .ok (leaves ++ [zero])
  else .ok leaves

/-- The loop of `BuildL1InfoRoot` for some levels from the level `h` on: the nodes of the last
level. -/
def buildLevels (zeroHashes : List Hash) :
    ℕ → ℕ → List Node → List Hash → Outcome TreeError (List Node)
  | 0, _, ns, _ => .ok ns
  | levels + 1, h, _, leaves => do
      let leaves ← padLeaves zeroHashes h leaves
      let ns ← buildIntermediate hash leaves
      buildLevels zeroHashes levels (h + 1) ns (ns.map Node.hash)

def orZeroLeaf (leaves : List Hash) : Outcome TreeError (List Hash) :=
  if leaves.length = 0 then do
    let zero ← index zeroHashes 0
    .ok [zero]
  else .ok leaves

def theRoot : List Node → Outcome TreeError Hash
  | [node] => .ok node.hash
  | _ => .err .moreThanOneRoot

variable (mt : Tree)

def buildL1InfoRoot (leaves : List Hash) : Outcome TreeError Hash := do
  let leaves ← orZeroLeaf mt.zeroHashes leaves
  let ns ← buildLevels hash mt.zeroHashes mt.height.toNat 0 [] leaves
  theRoot ns

/-- The sibling of a position. The number of the leaves is converted to `uint32`. -/
def siblingAt (h : ℕ) (i : UInt32) (leaves : List Hash) : Outcome TreeError Hash :=
  if i ≥ UInt32.ofNat leaves.length then index zeroHashes h
  else if i % 2 = 1 then index leaves (i - 1).toNat
  else index leaves (i + 1).toNat

/-- The loop of `ComputeMerkleProof` for the given number of levels, from the level `h` on:
the siblings, and the nodes of the last level. -/
def proofLevels (zeroHashes : List Hash) :
    ℕ → ℕ → UInt32 → List Node → List Hash → Outcome TreeError (List Hash × List Node)
  | 0, _, _, ns, _ => .ok ([], ns)
  | levels + 1, h, i, _, leaves => do
      let leaves ← padLeaves zeroHashes h leaves
      let sibling ← siblingAt zeroHashes h i leaves
      let ns ← buildIntermediate hash leaves
      let rest ← proofLevels zeroHashes levels (h + 1) (i / 2) ns (ns.map Node.hash)
      .ok (sibling :: rest.1, rest.2)

def computeMerkleProof (gerIndex : UInt32) (leaves : List Hash) :
    Outcome TreeError (List Hash × Hash) := do
  let leaves ← orZeroLeaf mt.zeroHashes leaves
  let proof ← proofLevels hash mt.zeroHashes mt.height.toNat 0 gerIndex [] leaves
  let root ← theRoot proof.2
  .ok (proof.1, root)

variable (initialLeaves : List Hash)

def initSiblings : Outcome TreeError (List Hash × Hash) :=
  if mt.count ≠ UInt32.ofNat initialLeaves.length then .err .lengthMismatch
  else if mt.count = 0 then do
    let siblings ← (List.range mt.height.toNat).mapM (index mt.zeroHashes)
    let root ← buildL1InfoRoot hash mt initialLeaves
    .ok (siblings, root)
  else computeMerkleProof hash mt mt.count initialLeaves

def newL1InfoTree (height : UInt8) (initialLeaves : List Hash) : Outcome TreeError Tree := do
  let mt : Tree := ⟨height, generateZeroHashes hash height,
    UInt32.ofNat initialLeaves.length, [], zeroHash⟩
  let init ← initSiblings hash mt initialLeaves
  .ok { mt with siblings := init.1, currentRoot := init.2 }

def resetL1InfoTree : Outcome TreeError Tree := newL1InfoTree hash 32 initialLeaves

def updateSibling (isFilledSubTree : Bool) (siblings : List Hash) (h : ℕ) (cur : Hash) :
    Outcome TreeError (List Hash) :=
  if isFilledSubTree then
    if h < siblings.length then .ok (siblings.set h cur) else .panic
  else .ok siblings

/-- The loop of `AddLeaf` for some levels from the level `h` on: the siblings and the root. -/
def addLevels (zeroHashes : List Hash) (i : UInt32) :
    ℕ → ℕ → List Hash → Hash → Bool → Outcome TreeError (List Hash × Hash)
  | 0, _, siblings, cur, _ => .ok (siblings, cur)
  | levels + 1, h, siblings, cur, isFilledSubTree =>
    if i.toNat.testBit h then do
      let sibling ← index siblings h
      addLevels zeroHashes i levels (h + 1) siblings (hash sibling cur) isFilledSubTree
    else do
      let siblings ← updateSibling isFilledSubTree siblings h cur
      let zero ← index zeroHashes h
      addLevels zeroHashes i levels (h + 1) siblings (hash cur zero) false

def addLeaf (i : UInt32) (leaf : Hash) : Outcome TreeError (Tree × Hash) :=
  if i ≠ mt.count then .err (.mismatchedLeafCount i mt.count)
  else do
    let added ← addLevels hash mt.zeroHashes i mt.height.toNat 0 mt.siblings leaf true
    .ok ({ mt with siblings := added.1, currentRoot := added.2, count := mt.count + 1 }, added.2)

/-- Calls of `AddLeaf` at consecutive indices: the tree, and the root that was returned
last. -/
def addLeaves : Tree → Hash → UInt32 → List Hash → Outcome TreeError (Tree × Hash)
  | mt, root, _, [] => .ok (mt, root)
  | mt, _, i, leaf :: leaves => do
      let added ← addLeaf hash mt i leaf
      addLeaves added.1 added.2 (i + 1) leaves
end

end EthdaNode.L1InfoTree
