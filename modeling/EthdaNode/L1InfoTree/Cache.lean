import EthdaNode.L1InfoTree.Root

/-!
# The cache of the L1 info tree

`State` keeps the tree of the exit roots in memory. `AddL1InfoTreeLeaf` adds a leaf to it
before the row is inserted, and only the rollback of the transaction resets it. The
database shows a transaction the committed rows and its own; after a failed statement or
commit it drops the rows of the transaction, which does nothing more.
-/

namespace EthdaNode.L1InfoTree

open Go MerkleTree List Option UInt32
open Sequencer (Hash)

/-! ## The state and the database -/

/-- `L1InfoTreeLeaf`: what its hash is made of, with the timestamp in seconds. -/
structure L1InfoTreeLeaf where
  globalExitRoot : Hash
  previousBlockHash : Hash
  timestamp : UInt64

/-- `L1InfoTreeExitRootStorageEntry`, a row of the table of exit roots. -/
structure Entry where
  leaf : L1InfoTreeLeaf
  l1InfoTreeRoot : Hash
  l1InfoTreeIndex : UInt32

/-- Whether a transaction can be used, waits for its rollback, or is over. -/
inductive TxStatus where
  | active | failed | closed
  deriving DecidableEq

structure StateTx where
  rows : List Entry
  status : TxStatus
  l1InfoTreeModified : Bool

structure Store where
  l1InfoTree : Option Tree
  exitRoot : List Entry
  txs : List StateTx

/-- A `pgx.Tx`: none, one of `BeginStateTransaction`, or one of another type. -/
inductive DbTx where
  | nil
  | stateTx (id : ℕ)
  | other
  deriving DecidableEq

/-- Which calls of the storage in `AddL1InfoTreeLeaf` do not fail for other reasons. -/
structure Answers where
  getLatestIndex : Bool
  getAllL1InfoRootEntries : Bool
  addL1InfoRootToExitRoot : Bool

inductive StateError where
  | castingDbTx
  | storage
  | tree (e : TreeError)
  deriving DecidableEq

/-- The keccak hashes: of two hashes, and `HashLeafData`. -/
structure Keccak where
  hash : Hash → Hash → Hash
  hashLeafData : Hash → Hash → UInt64 → Hash

def Keccak.leafHash (keccak : Keccak) (leaf : L1InfoTreeLeaf) : Hash :=
  keccak.hashLeafData leaf.globalExitRoot leaf.previousBlockHash leaf.timestamp

variable (rows : List Entry)

def latestIndex : Option UInt32 :=
  rows.foldl (fun latest row => some (latest.elim row.l1InfoTreeIndex (max row.l1InfoTreeIndex)))
    none

def allEntries : List Entry := rows.insertionSort fun a b => a.l1InfoTreeIndex ≤ b.l1InfoTreeIndex

namespace Store

variable (s : Store)

def usable : DbTx → Bool
  | .nil => true
  | .stateTx id => s.txs[id]?.any fun tx => tx.status = .active
  | .other => false

def visible : DbTx → List Entry
  | .stateTx id => s.exitRoot ++ s.txs[id]?.elim [] StateTx.rows
  | _ => s.exitRoot

def modifyTx (f : StateTx → StateTx) : DbTx → Store
  | .stateTx id => { s with txs := s.txs.modify id f }
  | _ => s

variable (dbTx : DbTx)

def setL1InfoTreeModified : Store :=
  s.modifyTx (fun tx => { tx with l1InfoTreeModified := true }) dbTx

def insertRow (row : Entry) : DbTx → Store
  | .stateTx id => s.modifyTx (fun tx => { tx with rows := tx.rows ++ [row] }) (.stateTx id)
  | _ => { s with exitRoot := s.exitRoot ++ [row] }

def fail : Store := s.modifyTx (fun tx => { tx with rows := [], status := .failed }) dbTx

def leaves (keccak : Keccak) (s : Store) (dbTx : DbTx) : List Hash :=
  (allEntries (s.visible dbTx)).map fun row => keccak.leafHash row.leaf

def buildL1InfoTreeCacheIfNeed (keccak : Keccak) (s : Store) (dbTx : DbTx) (answers : Answers) :
    Outcome StateError Tree :=
  match s.l1InfoTree with
  | some mt => .ok mt
  | none =>
    if answers.getAllL1InfoRootEntries then
      (resetL1InfoTree keccak.hash (s.leaves keccak dbTx)).mapErr .tree
    else .err .storage

def storeLeaf (row : Entry) (answers : Answers) : Store × Outcome StateError Entry :=
  let s := s.setL1InfoTreeModified dbTx
  if answers.addL1InfoRootToExitRoot then (s.insertRow row dbTx, .ok row)
  else (s.fail dbTx, .err .storage)

def addLeafAt (keccak : Keccak) (s : Store) (dbTx : DbTx) (leaf : L1InfoTreeLeaf)
    (newIndex : UInt32) (answers : Answers) : Store × Outcome StateError Entry :=
  match s.buildL1InfoTreeCacheIfNeed keccak dbTx answers with
  | .ok mt =>
    match addLeaf keccak.hash mt newIndex (keccak.leafHash leaf) with
    | .ok added =>
      { s with l1InfoTree := some added.1 }.storeLeaf dbTx ⟨leaf, added.2, newIndex⟩ answers
    | .err e => ({ s with l1InfoTree := some mt }, .err (.tree e))
    | .panic => ({ s with l1InfoTree := some mt }, .panic)
    | .hang => ({ s with l1InfoTree := some mt }, .hang)
  | .err e => (if e = .storage then s.fail dbTx else s, .err e)
  | .panic => (s, .panic)
  | .hang => (s, .hang)

def addL1InfoTreeLeaf (keccak : Keccak) (s : Store) (dbTx : DbTx) (leaf : L1InfoTreeLeaf)
    (answers : Answers) : Store × Outcome StateError Entry :=
  if dbTx = .other then (s, .err .castingDbTx)
  else if s.usable dbTx = false then (s, .err .storage)
  else if answers.getLatestIndex then
    s.addLeafAt keccak dbTx leaf ((latestIndex (s.visible dbTx)).elim 0 (· + 1)) answers
  else (s.fail dbTx, .err .storage)

/-- `Commit`, which is that of the database: if it fails, then the rows are dropped. -/
def commit (id : ℕ) (succeeds : Bool) : Store :=
  if s.usable (.stateTx id) then
    if succeeds then
      { s.modifyTx (fun tx => { tx with rows := [], status := .closed }) (.stateTx id) with
        exitRoot := s.visible (.stateTx id) }
    else s.fail (.stateTx id)
  else s

def rollback (id : ℕ) : Store :=
  { s.modifyTx (fun tx => { tx with rows := [], status := .closed }) (.stateTx id) with
    l1InfoTree := if s.txs[id]?.any StateTx.l1InfoTreeModified then none else s.l1InfoTree }

end Store

open Store

inductive Event where
  | beginStateTransaction
  | addL1InfoTreeLeaf (dbTx : DbTx) (leaf : L1InfoTreeLeaf) (answers : Answers)
  | commit (id : ℕ) (succeeds : Bool)
  | rollback (id : ℕ)

def Store.step (keccak : Keccak) (s : Store) : Event → Store
  | .beginStateTransaction => { s with txs := s.txs ++ [⟨[], .active, false⟩] }
  | .addL1InfoTreeLeaf dbTx leaf answers => (s.addL1InfoTreeLeaf keccak dbTx leaf answers).1
  | .commit id succeeds => s.commit id succeeds
  | .rollback id => s.rollback id

def Indexed : Prop := rows.map Entry.l1InfoTreeIndex = (List.range rows.length).map ofNat

variable {rows : List Entry}

lemma indexed_concat_iff {row : Entry} :
    Indexed (rows ++ [row]) ↔ Indexed rows ∧ row.l1InfoTreeIndex = ofNat rows.length := by
  rw [Indexed, map_append, length_append, length_singleton, range_succ, map_append]
  constructor
  · intro h
    obtain ⟨hw, hr⟩ := append_inj' h rfl
    exact ⟨hw, singleton_inj.mp hr⟩
  rintro ⟨hw, hr⟩
  rw [hw, map_singleton, hr]
  rfl

lemma Indexed.latestIndex_concat {row : Entry} (h : Indexed (rows ++ [row]))
    (hl : rows.length < 2 ^ 32) : latestIndex (rows ++ [row]) = some (ofNat rows.length) := by
  induction rows using List.reverseRecOn generalizing row with
  | nil =>
    have hr := (indexed_concat_iff.mp h).2
    rw [nil_append, latestIndex, foldl_cons, foldl_nil, elim_none, hr]
  | append_singleton rows previous ih =>
    obtain ⟨ho, hr⟩ := indexed_concat_iff.mp h
    rw [length_append, length_singleton] at hl hr
    have hp := ih ho (by omega)
    have he : ¬ofNat (rows.length + 1) ≤ ofNat rows.length := by
      rw [le_iff_toNat_le, toNat_ofNat_of_lt hl, toNat_ofNat_of_lt (by omega)]
      omega
    rw [latestIndex, foldl_append]
    rw [latestIndex] at hp
    rw [hp, foldl_cons, foldl_nil, elim_some, hr, length_append, length_singleton]
    exact congrArg some (if_neg he)

lemma Indexed.next {rows : List Entry} (h : Indexed rows) (hl : rows.length < 2 ^ 32) :
    (latestIndex rows).elim 0 (· + 1) = ofNat rows.length := by
  cases rows using List.reverseRecOn with
  | nil => rfl
  | append_singleton rows row =>
    rw [length_append, length_singleton] at hl ⊢
    rw [h.latestIndex_concat (by omega), elim_some, ofNat_add]
    rfl

lemma Indexed.allEntries_eq (h : Indexed rows) (hn : rows.length < 2 ^ 32) :
    allEntries rows = rows := by
  refine List.Pairwise.insertionSort_eq ?_
  rw [← pairwise_map (f := Entry.l1InfoTreeIndex) (R := (· ≤ ·)), h, pairwise_map]
  refine pairwise_lt_range.imp_of_mem fun hi hj hl => ?_
  rw [mem_range] at hi hj
  rw [le_iff_toNat_le, toNat_ofNat_of_lt (by omega), toNat_ofNat_of_lt (by omega)]
  exact hl.le

/-! ## The invariant -/

def leafHashes (keccak : Keccak) (rows : List Entry) : List Hash :=
  rows.map fun row => keccak.leafHash row.leaf

structure IsTreeOf (keccak : Keccak) (mt : Tree) (rows : List Entry) : Prop where
  height : mt.height = 32
  represents : Represents keccak.hash mt (leafHashes keccak rows)
  siblings : HasSiblings keccak.hash mt (leafHashes keccak rows)

variable {keccak kc : Keccak} (kc) in
lemma exists_isTreeOf (he : rows.length + 1 < 2 ^ 32) : ∃ mt, resetL1InfoTree kc.hash
    (leafHashes kc rows) = .ok mt ∧ IsTreeOf kc mt rows := by
  have hl : (leafHashes kc rows).length = rows.length := length_map _
  obtain ⟨mt, hm, hh, hr, hs⟩ : ∃ mt, newL1InfoTree kc.hash 32 (leafHashes kc rows) = .ok mt ∧
      mt.height = 32 ∧ Represents kc.hash mt (leafHashes kc rows) ∧ InitSiblings kc.hash (32 :
      UInt8).toNat (leafHashes kc rows) mt.siblings := by
    refine newTree_ok kc.hash (by decide) (by decide) ?_
    rw [hl]
    exact (Nat.lt_of_succ_lt he).le
  refine ⟨mt, hm, hh, hr, InitSiblings.hasSiblings (by rw [hh]; exact hs) ?_⟩
  intro h
  rw [hl] at h
  omega

lemma IsTreeOf.addLeaf {mt : Tree} (hm : IsTreeOf kc mt rows) (he : rows.length < 2 ^ 32)
    (leaf : L1InfoTreeLeaf) : ∃ mt', addLeaf kc.hash mt (ofNat rows.length) (kc.leafHash leaf) = .ok
    (mt', mt'.currentRoot) ∧ ∀ row : Entry, row.leaf = leaf → IsTreeOf kc mt' (rows ++ [row]) := by
  have hn : (leafHashes kc rows).length = rows.length := length_map _
  obtain ⟨mt', ha, hh, hp, hs⟩ := hm.represents.addLeaf hm.siblings
    (by rw [hm.height]; decide) (by rw [hm.height, hn]; exact he) (kc.leafHash leaf)
  rw [hn] at ha
  refine ⟨mt', ha, fun row hr => ?_⟩
  obtain rfl := hr
  have hl : leafHashes kc (rows ++ [row]) =
      leafHashes kc rows ++ [kc.leafHash row.leaf] := map_append
  refine ⟨hh.trans hm.height, ?_, ?_⟩
  · rw [hl]
    exact hp
  · rw [hl]
    exact hs

namespace Store

variable {s : Store} {dbTx dbTx' : DbTx}

/-- The other transactions that have changed the tree are over. -/
def Alone (s : Store) (dbTx : DbTx) : Prop :=
  ∀ j tx, s.txs[j]? = some tx → dbTx ≠ .stateTx j → tx.l1InfoTreeModified = true →
    tx.status = .closed

/-- The rows of the transactions, as long as the calls are alone. -/
structure Ordered (s : Store) : Prop where
  indexed : Indexed s.exitRoot
  rows : ∀ (j : ℕ) (tx : StateTx), s.txs[j]? = some tx → tx.rows ≠ [] →
    tx.l1InfoTreeModified = true ∧ tx.status = .active ∧ Indexed (s.exitRoot ++ tx.rows)
  modified : ∀ (j : ℕ) (tx : StateTx), s.txs[j]? = some tx → tx.l1InfoTreeModified = true →
    tx.status = .active → tx.rows ≠ []
  unique : ∀ (i j : ℕ) (tx tx' : StateTx), s.txs[i]? = some tx → s.txs[j]? = some tx' →
    tx.l1InfoTreeModified = true → tx.status ≠ .closed → tx'.l1InfoTreeModified = true →
    tx'.status ≠ .closed → i = j

/-- The cache is the tree of what the next call sees, if that call is alone. -/
structure Inv (keccak : Keccak) (s : Store) : Prop where
  ordered : s.Ordered
  tree : ∀ mt, s.l1InfoTree = some mt → ∀ dbTx, s.usable dbTx = true → s.Alone dbTx →
    IsTreeOf keccak mt (s.visible dbTx)

variable {tx : StateTx}

lemma visible_stateTx {id : ℕ} (ht : s.txs[id]? = some tx) :
    s.visible (.stateTx id) = s.exitRoot ++ tx.rows := by
  rw [visible, ht]
  rfl

lemma usable_congr {s' : Store} (h : s.txs = s'.txs) : s.usable dbTx = s'.usable dbTx := by
  cases dbTx with
  | nil => rfl
  | other => rfl
  | stateTx id => rw [usable, usable, h]

lemma visible_congr {s' : Store} (he : s.exitRoot = s'.exitRoot) (ht : s.txs = s'.txs) :
    s.visible dbTx = s'.visible dbTx := by
  cases dbTx with
  | nil => exact he
  | other => exact he
  | stateTx id => rw [visible, visible, he, ht]

lemma usable_stateTx {id : ℕ} (h : s.usable (.stateTx id) = true) :
    ∃ tx, s.txs[id]? = some tx ∧ tx.status = .active := by
  cases ht : s.txs[id]? with
  | none =>
    rw [usable, ht] at h
    cases h
  | some tx =>
    rw [usable, ht] at h
    exact ⟨tx, rfl, of_decide_eq_true h⟩

/-- A call that is alone has the rows of all transactions but its own gone. -/
lemma Ordered.rows_eq_nil (hs : s.Ordered) (ha : s.Alone dbTx) {j : ℕ}
    (ht : s.txs[j]? = some tx) (hn : dbTx ≠ .stateTx j) : tx.rows = [] := by
  by_contra hrows
  obtain ⟨hm, hac, -⟩ := hs.rows j tx ht hrows
  have hc := ha j tx ht hn hm
  rw [hac] at hc
  cases hc

lemma Ordered.visible_eq (hs : s.Ordered) (ha : s.Alone dbTx) (hn : dbTx' ≠ dbTx) :
    s.visible dbTx' = s.exitRoot := by
  cases dbTx' with
  | nil => rfl
  | other => rfl
  | stateTx j =>
    cases ht : s.txs[j]? with
    | none => rw [visible, ht, elim_none, append_nil]
    | some tx =>
      rw [visible_stateTx ht, hs.rows_eq_nil ha ht (Ne.symm hn), append_nil]

lemma Ordered.visible_eq_visible (hs : s.Ordered) (hl : s.Alone dbTx)
    (ha : s.Alone dbTx') : s.visible dbTx' = s.visible dbTx := by
  by_cases he : dbTx' = dbTx
  · rw [he]
  · rw [hs.visible_eq hl he, hs.visible_eq ha (Ne.symm he)]

lemma Ordered.indexed_visible (hs : s.Ordered) (dbTx : DbTx) : Indexed (s.visible dbTx) := by
  cases dbTx with
  | nil => exact hs.indexed
  | other => exact hs.indexed
  | stateTx j =>
    cases ht : s.txs[j]? with
    | none =>
      rw [visible, ht, elim_none, append_nil]
      exact hs.indexed
    | some tx =>
      rw [visible_stateTx ht]
      by_cases hr : tx.rows = []
      · rw [hr, append_nil]
        exact hs.indexed
      · exact (hs.rows j tx ht hr).2.2

/-! ## Steps -/

variable {f : StateTx → StateTx}

lemma getElem?_modifyTx {id j : ℕ} (h : (s.modifyTx f (.stateTx id)).txs[j]? = some tx) :
    ∃ tx', s.txs[j]? = some tx' ∧ ((id = j ∧ tx = f tx') ∨ (id ≠ j ∧ tx = tx')) := by
  rw [modifyTx, getElem?_modify] at h
  obtain ⟨tx', ht, rfl⟩ := map_eq_some_iff.mp h
  refine ⟨tx', ht, ?_⟩
  by_cases hj : id = j
  · exact .inl ⟨hj, if_pos hj⟩
  · exact .inr ⟨hj, if_neg hj⟩

lemma getElem?_modifyTx_self {id : ℕ} (h : s.txs[id]? = some tx) :
    (s.modifyTx f (.stateTx id)).txs[id]? = some (f tx) := by
  rw [modifyTx, getElem?_modify, h, Option.map_eq_map, Option.map_some, if_pos rfl]

lemma getElem?_modifyTx_of_ne {id j : ℕ} (h : id ≠ j) :
    (s.modifyTx f (.stateTx id)).txs[j]? = s.txs[j]? := by
  rw [modifyTx, getElem?_modify]
  simp [h]

lemma visible_modifyTx_of_ne {id : ℕ} (h : dbTx ≠ .stateTx id) :
    (s.modifyTx f (.stateTx id)).visible dbTx = s.visible dbTx := by
  cases dbTx with
  | nil => rfl
  | other => rfl
  | stateTx j =>
    have hj : id ≠ j := fun hj => h (congrArg DbTx.stateTx hj.symm)
    rw [visible, visible, getElem?_modifyTx_of_ne hj]
    rfl

lemma usable_modifyTx_of_ne {id : ℕ} (h : dbTx ≠ .stateTx id) :
    (s.modifyTx f (.stateTx id)).usable dbTx = s.usable dbTx := by
  cases dbTx with
  | nil => rfl
  | other => rfl
  | stateTx j =>
    have hj : id ≠ j := fun hj => h (congrArg DbTx.stateTx hj.symm)
    rw [usable, usable, getElem?_modifyTx_of_ne hj]

lemma Ordered.withCache (hs : s.Ordered) (cache : Option Tree) :
    { s with l1InfoTree := cache }.Ordered :=
  ⟨hs.indexed, hs.rows, hs.modified, hs.unique⟩

section
variable {id : ℕ} {status : TxStatus}

lemma open_of_drop {j : ℕ}
    (ho : status = .closed ∨ ∀ tx, s.txs[id]? = some tx → tx.status ≠ .closed)
    (hx : (s.modifyTx (fun tx => { tx with rows := [], status := status })
    (.stateTx id)).txs[j]? = some tx) (hm : tx.l1InfoTreeModified = true)
    (hs : tx.status ≠ .closed) :
    ∃ tx', s.txs[j]? = some tx' ∧ tx'.l1InfoTreeModified = true ∧ tx'.status ≠ .closed := by
  obtain ⟨tx', ht, ⟨rfl, rfl⟩ | ⟨-, rfl⟩⟩ := getElem?_modifyTx hx
  · exact ⟨tx', ht, hm, ho.resolve_left hs tx' ht⟩
  · exact ⟨tx, ht, hm, hs⟩

variable (id) in
lemma Ordered.drop (hs : s.Ordered) (ha : status ≠ .active)
    (ho : status = .closed ∨ ∀ tx, s.txs[id]? = some tx → tx.status ≠ .closed) :
    (s.modifyTx (fun tx => { tx with rows := [], status := status }) (.stateTx id)).Ordered where
  indexed := hs.indexed
  rows := by
    intro j tx ht hr
    obtain ⟨tx', hx, ⟨-, rfl⟩ | ⟨-, rfl⟩⟩ := getElem?_modifyTx ht
    · exact absurd rfl hr
    · exact hs.rows j tx hx hr
  modified := by
    intro j tx ht hd hst
    obtain ⟨tx', hx, ⟨-, rfl⟩ | ⟨-, rfl⟩⟩ := getElem?_modifyTx ht
    · exact absurd hst ha
    · exact hs.modified j tx hx hd hst
  unique := by
    intro i j tx tx' ht hx hm hc hm' hc'
    obtain ⟨tx₀, h₀, hm₀, hc₀⟩ := open_of_drop ho ht hm hc
    obtain ⟨tx₁, h₁, hm₁, hc₁⟩ := open_of_drop ho hx hm' hc'
    exact hs.unique i j tx₀ tx₁ h₀ h₁ hm₀ hc₀ hm₁ hc₁

lemma usable_drop (ha : status ≠ .active)
    (h : (s.modifyTx (fun tx => { tx with rows := [], status := status })
    (.stateTx id)).usable dbTx = true) : dbTx ≠ .stateTx id ∧ s.usable dbTx = true := by
  have hn : dbTx ≠ .stateTx id := by
    rintro rfl
    obtain ⟨tx, ht, hs⟩ := usable_stateTx h
    obtain ⟨tx', -, ⟨-, rfl⟩ | ⟨hi, -⟩⟩ := getElem?_modifyTx ht
    · exact ha hs
    · exact hi rfl
  rw [usable_modifyTx_of_ne hn] at h
  exact ⟨hn, h⟩

lemma alone_of_drop
    (hk : ∀ tx, s.txs[id]? = some tx → tx.l1InfoTreeModified = true → status ≠ .closed)
    (h : (s.modifyTx (fun tx => { tx with rows := [], status := status })
    (.stateTx id)).Alone dbTx) : s.Alone dbTx := by
  intro j tx ht hj hm
  by_cases hi : id = j
  · obtain rfl := hi
    exact absurd (h id _ (getElem?_modifyTx_self ht) hj hm) (hk tx ht hm)
  refine h j tx ?_ hj hm
  rw [getElem?_modifyTx_of_ne hi]
  exact ht

/-- The cache stays, unless the transaction has changed the tree and is over. -/
lemma Inv.drop (hi : Inv kc s) (ha : status ≠ .active)
    (ho : status = .closed ∨ ∀ tx, s.txs[id]? = some tx → tx.status ≠ .closed)
    (hk : ∀ tx, s.txs[id]? = some tx → tx.l1InfoTreeModified = true → status ≠ .closed) :
    Inv kc (s.modifyTx (fun tx => { tx with rows := [], status := status }) (.stateTx id)) where
  ordered := hi.ordered.drop id ha ho
  tree := by
    intro mt hm dbTx he hl
    obtain ⟨hn, hu⟩ := usable_drop ha he
    rw [visible_modifyTx_of_ne hn]
    exact hi.tree mt hm dbTx hu (alone_of_drop hk hl)
end

lemma Inv.fail (hi : Inv kc s) (hu : s.usable dbTx = true) : Inv kc (s.fail dbTx) := by
  cases dbTx with
  | nil => exact hi
  | other => exact hi
  | stateTx id =>
    obtain ⟨tx, ht, ha⟩ := usable_stateTx hu
    refine hi.drop nofun (.inr fun tx' hx hc => ?_) fun _ _ _ => nofun
    obtain rfl := mem_unique ht hx
    rw [ha] at hc
    cases hc

lemma Inv.rollback (hi : Inv kc s) (id : ℕ) : Inv kc (s.rollback id) := by
  rw [Store.rollback]
  by_cases hm : s.txs[id]?.any StateTx.l1InfoTreeModified = true
  · rw [if_pos hm]
    refine ⟨Ordered.withCache (hi.ordered.drop id ?_ (.inl rfl)) none, nofun⟩
    nofun
  rw [if_neg hm]
  refine hi.drop nofun (.inl rfl) fun tx ht hx => ?_
  rw [ht, any_some] at hm
  exact absurd hx hm

section
lemma getElem?_begin {j : ℕ} (ht : (s.step kc .beginStateTransaction).txs[j]? = some tx) :
    s.txs[j]? = some tx ∨ (j = s.txs.length ∧ tx = ⟨[], .active, false⟩) := by
  rw [step] at ht
  rcases lt_trichotomy j s.txs.length with hj | rfl | hj
  · rw [getElem?_append_left hj] at ht
    exact .inl ht
  · rw [getElem?_concat_length] at ht
    exact .inr ⟨rfl, (Option.some.inj ht).symm⟩
  · rw [getElem?_eq_none (by simpa using hj)] at ht
    cases ht

lemma getElem?_begin_of_modified {j : ℕ} (ht : (s.step kc .beginStateTransaction).txs[j]? = some tx)
    (hm : tx.l1InfoTreeModified = true) : s.txs[j]? = some tx := by
  rcases getElem?_begin ht with hx | ⟨-, rfl⟩
  · exact hx
  · cases hm

lemma Ordered.beginStateTransaction (hs : s.Ordered) :
    (s.step kc .beginStateTransaction).Ordered where
  indexed := hs.indexed
  rows := by
    intro j tx ht hr
    rcases getElem?_begin ht with hx | ⟨-, rfl⟩
    · exact hs.rows j tx hx hr
    · exact absurd rfl hr
  modified := fun j tx ht hm => hs.modified j tx (getElem?_begin_of_modified ht hm) hm
  unique := fun i j tx tx' ht hx hm hc hm' =>
    hs.unique i j tx tx' (getElem?_begin_of_modified ht hm)
      (getElem?_begin_of_modified hx hm') hm hc hm'

lemma Inv.beginStateTransaction (hi : Inv kc s) :
    Inv kc (s.step kc .beginStateTransaction) where
  ordered := hi.ordered.beginStateTransaction
  tree := by
    intro mt hm dbTx hu hn
    have ha : ∀ {dbTx'}, (∀ j tx, s.txs[j]? = some tx → dbTx' ≠ .stateTx j →
        dbTx ≠ .stateTx j) → s.Alone dbTx' := by
      intro dbTx' hne j tx ht hj
      refine hn j tx ?_ (hne j tx ht hj)
      exact (List.getElem?_append_left (List.getElem?_eq_some_iff.mp ht).1).trans ht
    cases dbTx with
    | nil => exact hi.tree mt hm .nil rfl (ha fun _ _ _ h => h)
    | other => cases hu
    | stateTx id =>
      obtain ⟨tx, ht, hc⟩ := usable_stateTx hu
      rw [visible_stateTx ht]
      rcases getElem?_begin ht with hx | ⟨rfl, rfl⟩
      · have husable' : s.usable (.stateTx id) = true := by
          rw [usable, hx, any_some]
          exact decide_eq_true hc
        have hr := hi.tree mt hm _ husable' (ha fun _ _ _ h => h)
        rw [visible_stateTx hx] at hr
        exact hr
      · rw [append_nil]
        refine hi.tree mt hm .nil rfl (ha fun j tx ht _ he => ?_)
        have hj := (List.getElem?_eq_some_iff.mp ht).1
        exact hj.ne' (DbTx.stateTx.inj he)
end

section
variable {id : ℕ} {tx : StateTx}

lemma Ordered.alone_of_modified (hs : s.Ordered) (hx : s.txs[id]? = some tx)
    (hd : tx.l1InfoTreeModified = true) (ha : tx.status = .active) : s.Alone (.stateTx id) := by
  intro j tx' ht hn hm
  by_contra hc
  have hi := hs.unique id j tx tx' hx ht hd (by rw [ha]; nofun) hm hc
  exact hn (congrArg DbTx.stateTx hi)

lemma Inv.commitRows (hi : Inv kc s) (ht : s.txs[id]? = some tx)
    (hc : tx.status = .active) (hro : tx.rows ≠ []) :
    Inv kc
    { s.modifyTx (fun tx => { tx with rows := [], status := .closed }) (.stateTx id) with
    exitRoot := s.exitRoot ++ tx.rows } := by
  obtain ⟨hmd, -, hix⟩ := hi.ordered.rows id tx ht hro
  have ha := hi.ordered.alone_of_modified ht hmd hc
  have he : s.usable (.stateTx id) = true := by
    rw [usable, ht, any_some]
    exact decide_eq_true hc
  have hd := hi.ordered.drop id (by nofun : TxStatus.closed ≠ .active) (.inl rfl)
  have ho : Ordered
      { s.modifyTx (fun tx => { tx with rows := [], status := .closed }) (.stateTx id) with
        exitRoot := s.exitRoot ++ tx.rows } := by
    refine ⟨hix, fun j tx' hx hw => ?_, hd.modified, hd.unique⟩
    obtain ⟨tx₀, htx₀, ⟨-, rfl⟩ | ⟨hid, rfl⟩⟩ := getElem?_modifyTx hx
    · exact absurd rfl hw
    · exact absurd (hi.ordered.rows_eq_nil ha htx₀ fun h => hid (DbTx.stateTx.inj h)) hw
  refine ⟨ho, fun mt hm dbTx hu _ => ?_⟩
  have hn : dbTx ≠ .stateTx id :=
    (usable_drop (by nofun : TxStatus.closed ≠ .active) ((usable_congr rfl).trans hu)).1
  have halone' : Alone
      { s.modifyTx (fun tx => { tx with rows := [], status := .closed }) (.stateTx id) with
        exitRoot := s.exitRoot ++ tx.rows } (.stateTx id) := by
    intro j tx' hx hj hmo
    obtain ⟨tx₀, htx₀, ⟨-, rfl⟩ | ⟨-, rfl⟩⟩ := getElem?_modifyTx hx
    · rfl
    · exact ha j tx' htx₀ hj hmo
  rw [ho.visible_eq halone' hn]
  have hr := hi.tree mt hm (.stateTx id) he ha
  rw [visible_stateTx ht] at hr
  exact hr

lemma Inv.commit (hi : Inv kc s) (id : ℕ) (succeeds : Bool) : Inv kc (s.commit id succeeds) := by
  rw [Store.commit]
  split_ifs with hu hs
  · obtain ⟨tx, ht, ha⟩ := usable_stateTx hu
    rw [visible_stateTx ht]
    by_cases hr : tx.rows = []
    · rw [hr, append_nil]
      refine hi.drop nofun (.inl rfl) fun tx' hx hm _ => ?_
      obtain rfl := mem_unique ht hx
      exact hi.ordered.modified id tx ht hm ha hr
    · exact hi.commitRows ht ha hr
  · exact hi.fail hu
  · exact hi
end

section
variable {id : ℕ} {mt mt' : Tree} {row : Entry} {ans : Answers}

lemma leaves_eq (hs : s.Ordered) (hl : (s.visible dbTx).length < 2 ^ 32) :
    s.leaves kc dbTx = leafHashes kc (s.visible dbTx) := by
  rw [leaves, (hs.indexed_visible dbTx).allEntries_eq hl]
  rfl

lemma Inv.build (hi : Inv kc s) (hu : s.usable dbTx = true) (ha : s.Alone dbTx)
    (hl : (s.visible dbTx).length + 1 < 2 ^ 32) (ans : Answers) : s.buildL1InfoTreeCacheIfNeed kc
    dbTx ans = .err .storage ∨ ∃ mt, s.buildL1InfoTreeCacheIfNeed kc dbTx ans = .ok mt ∧ IsTreeOf kc
    mt (s.visible dbTx) := by
  rw [buildL1InfoTreeCacheIfNeed]
  cases hc : s.l1InfoTree with
  | some mt => exact .inr ⟨mt, rfl, hi.tree mt hc dbTx hu ha⟩
  | none =>
    obtain ⟨mt, hm, ht⟩ := exists_isTreeOf kc hl
    rw [leaves_eq hi.ordered (Nat.lt_of_succ_lt hl), hm]
    cases hn : ans.getAllL1InfoRootEntries with
    | false => exact .inl rfl
    | true => exact .inr ⟨mt, rfl, ht⟩

variable {f : StateTx → StateTx}

lemma Ordered.touch (hs : s.Ordered) (hl : s.Alone (.stateTx id))
    (hr : ∀ tx, s.txs[id]? = some tx → (f tx).rows ≠ [] → (f tx).l1InfoTreeModified = true ∧
    (f tx).status = .active ∧ Indexed (s.exitRoot ++ (f tx).rows))
    (hd : ∀ tx, s.txs[id]? = some tx → (f tx).status = .active → (f tx).rows ≠ []) :
    (s.modifyTx f (.stateTx id)).Ordered where
  indexed := hs.indexed
  rows := by
    intro j tx hx hn
    obtain ⟨tx', ht, ⟨rfl, rfl⟩ | ⟨-, rfl⟩⟩ := getElem?_modifyTx hx
    · exact hr tx' ht hn
    · exact hs.rows j tx ht hn
  modified := by
    intro j tx hx hm ha
    obtain ⟨tx', ht, ⟨rfl, rfl⟩ | ⟨-, rfl⟩⟩ := getElem?_modifyTx hx
    · exact hd tx' ht ha
    · exact hs.modified j tx ht hm ha
  unique := by
    have hi : ∀ j tx, (s.modifyTx f (.stateTx id)).txs[j]? = some tx →
        StateTx.l1InfoTreeModified tx = true → StateTx.status tx ≠ .closed → j = id := by
      intro j tx hx hm hcl
      obtain ⟨tx', ht, ⟨hj, -⟩ | ⟨hj, rfl⟩⟩ := getElem?_modifyTx hx
      · exact hj.symm
      · exact absurd (hl j tx ht (fun h => hj (DbTx.stateTx.inj h)) hm) hcl
    intro i j tx tx' hx ht hm hc hm' hc'
    exact (hi i tx hx hm hc).trans (hi j tx' ht hm' hc').symm

lemma eq_of_alone_touch (ht : s.txs[id]? = some tx)
    (hm : (f tx).l1InfoTreeModified = true) (hs : (f tx).status ≠ .closed)
    (ha : (s.modifyTx f (.stateTx id)).Alone dbTx) : dbTx = .stateTx id := by
  by_contra hne
  exact hs (ha id (f tx) (getElem?_modifyTx_self ht) hne hm)

lemma modifyTx_modifyTx {g : StateTx → StateTx} :
    (s.modifyTx f dbTx).modifyTx g dbTx = s.modifyTx (g ∘ f) dbTx := by
  cases dbTx with
  | nil => rfl
  | other => rfl
  | stateTx id => rw [modifyTx, modifyTx, modifyTx, modify_modify_eq]

lemma Inv.insertRow_nil (hs : s.Ordered) (hc : s.l1InfoTree = some mt)
    (ha : s.Alone .nil) (hw : row.l1InfoTreeIndex = ofNat s.exitRoot.length)
    (ht : IsTreeOf kc mt (s.exitRoot ++ [row])) :
    Inv kc { s with exitRoot := s.exitRoot ++ [row] } := by
  have ho : Ordered { s with exitRoot := s.exitRoot ++ [row] } := by
    refine ⟨indexed_concat_iff.mpr ⟨hs.indexed, hw⟩, fun j tx hx hr => ?_, hs.modified, hs.unique⟩
    exact absurd (hs.rows_eq_nil ha hx nofun) hr
  refine ⟨ho, fun mt' hm dbTx _ hn => ?_⟩
  obtain rfl := mem_unique hc hm
  have halone₀ : Alone { s with exitRoot := s.exitRoot ++ [row] } .nil := ha
  rw [ho.visible_eq_visible halone₀ hn]
  exact ht

lemma Inv.insertRow_stateTx (hs : s.Ordered) (hc : s.l1InfoTree = some mt)
    (hu : s.usable (.stateTx id) = true) (hl : s.Alone (.stateTx id))
    (hr : row.l1InfoTreeIndex = ofNat (s.visible (.stateTx id)).length)
    (htr : IsTreeOf kc mt (s.visible (.stateTx id) ++ [row])) :
    Inv kc ((s.setL1InfoTreeModified (.stateTx id)).insertRow row (.stateTx id)) := by
  obtain ⟨tx, ht, ha⟩ := usable_stateTx hu
  have hi := indexed_concat_iff.mpr ⟨hs.indexed_visible (.stateTx id), hr⟩
  rw [visible_stateTx ht, append_assoc] at hi htr
  rw [setL1InfoTreeModified, insertRow, modifyTx_modifyTx]
  refine ⟨hs.touch hl (fun tx' hx _ => ?_) fun tx' _ _ => ?_, fun mt' hm dbTx _ h => ?_⟩
  · obtain rfl := mem_unique ht hx
    exact ⟨rfl, ha, hi⟩
  · exact append_ne_nil_of_right_ne_nil _ (cons_ne_nil _ _)
  obtain rfl := mem_unique hc hm
  obtain rfl := eq_of_alone_touch ht rfl (by change tx.status ≠ _; rw [ha]; nofun) h
  rw [visible_stateTx (getElem?_modifyTx_self ht)]
  exact htr

/-- After a failed insert, no call is alone until the transaction is over. -/
lemma Inv.fail_stateTx (hs : s.Ordered) (hu : s.usable (.stateTx id) = true)
    (ha : s.Alone (.stateTx id)) :
    Inv kc ((s.setL1InfoTreeModified (.stateTx id)).fail (.stateTx id)) := by
  obtain ⟨tx, ht, -⟩ := usable_stateTx hu
  rw [setL1InfoTreeModified, Store.fail, modifyTx_modifyTx]
  refine ⟨hs.touch ha (fun _ _ h => absurd rfl h) fun _ _ => nofun, fun _ _ dbTx hd h => ?_⟩
  obtain rfl := eq_of_alone_touch ht rfl (by change TxStatus.failed ≠ _; nofun) h
  obtain ⟨tx', hx, hc⟩ := usable_stateTx hd
  obtain rfl := mem_unique (getElem?_modifyTx_self ht) hx
  cases hc

lemma Inv.storeLeaf (hs : s.Ordered) (hc : s.l1InfoTree = some mt) (hu : s.usable dbTx = true)
    (ha : s.Alone dbTx) (hn : dbTx = .nil → ans.addL1InfoRootToExitRoot = true)
    (hr : row.l1InfoTreeIndex = ofNat (s.visible dbTx).length)
    (ht : IsTreeOf kc mt (s.visible dbTx ++ [row])) : Inv kc (s.storeLeaf dbTx row ans).1 := by
  cases dbTx with
  | nil =>
    rw [storeLeaf, if_pos (hn rfl)]
    exact Inv.insertRow_nil hs hc ha hr ht
  | other => cases hu
  | stateTx id =>
    rw [storeLeaf]
    split_ifs with han
    · exact Inv.insertRow_stateTx hs hc hu ha hr ht
    · exact Inv.fail_stateTx hs hu ha
end

/-- A call is alone, its insert does not fail without a transaction, and there is room. -/
def Careful (s : Store) : Event → Prop
  | .addL1InfoTreeLeaf dbTx _ answers =>
    s.Alone dbTx ∧ (dbTx = .nil → answers.addL1InfoRootToExitRoot = true) ∧
      (s.visible dbTx).length + 1 < 2 ^ 32
  | _ => True

lemma Inv.addL1InfoTreeLeaf (hi : Inv kc s) {leaf : L1InfoTreeLeaf} {ans : Answers}
    (hc : s.Careful (.addL1InfoTreeLeaf dbTx leaf ans)) :
    Inv kc (s.addL1InfoTreeLeaf kc dbTx leaf ans).1 := by
  obtain ⟨ha, hn, hln⟩ := hc
  have hl := Nat.lt_of_succ_lt hln
  rw [Store.addL1InfoTreeLeaf]
  split_ifs with ho hu han
  · exact hi
  · exact hi
  · rw [Bool.not_eq_false] at hu
    rw [(hi.ordered.indexed_visible dbTx).next hl, addLeafAt]
    rcases hi.build hu ha hln ans with hb | ⟨mt, hb, hm⟩
    · rw [hb]
      exact hi.fail hu
    obtain ⟨mt', hd, ht⟩ := hm.addLeaf hl leaf
    simp only [hb, hd]
    have husable' : { s with l1InfoTree := some mt' }.usable dbTx = true :=
      (usable_congr rfl).trans hu
    have hv : { s with l1InfoTree := some mt' }.visible dbTx = s.visible dbTx :=
      visible_congr rfl rfl
    refine Inv.storeLeaf (hi.ordered.withCache _) rfl husable' ha hn ?_ ?_
    · rw [hv]
    · rw [hv]
      exact ht _ rfl
  · rw [Bool.not_eq_false] at hu
    exact hi.fail hu

lemma Inv.step (hi : Inv kc s) {ev : Event} (hc : s.Careful ev) : Inv kc (s.step kc ev) := by
  cases ev with
  | beginStateTransaction => exact hi.beginStateTransaction
  | addL1InfoTreeLeaf dbTx leaf ans => exact hi.addL1InfoTreeLeaf hc
  | commit id succeeds => exact hi.commit id succeeds
  | rollback id => exact hi.rollback id

/-- The state when the node starts: with no cache, or with that of `GetCurrentL1InfoRoot`. -/
structure Started (keccak : Keccak) (s : Store) : Prop where
  txs : s.txs = []
  indexed : Indexed s.exitRoot
  cache : ∀ mt, s.l1InfoTree = some mt → s.exitRoot.length + 1 < 2 ^ 32 ∧
    resetL1InfoTree keccak.hash (s.leaves keccak .nil) = .ok mt

def run (keccak : Keccak) (s : Store) (events : List Event) : Store := events.foldl (step keccak) s

def CarefulRun (keccak : Keccak) : Store → List Event → Prop
  | _, [] => True
  | s, event :: events => s.Careful event ∧ (s.step keccak event).CarefulRun keccak events

lemma Started.inv (hs : Started kc s) : Inv kc s := by
  have hn : ∀ (j : ℕ) (tx : StateTx), s.txs[j]? ≠ some tx := by
    intro j tx
    rw [hs.txs]
    nofun
  have ho : s.Ordered := ⟨hs.indexed, fun j tx h => absurd h (hn j tx), fun j tx h => absurd h (hn j
    tx), fun i _ tx _ h => absurd h (hn i tx)⟩
  refine ⟨ho, fun mt hm dbTx _ ha => ?_⟩
  have halone₀ : s.Alone .nil := fun j tx h => absurd h (hn j tx)
  obtain ⟨hl, hr⟩ := hs.cache mt hm
  have hlen' : (s.visible .nil).length + 1 < 2 ^ 32 := hl
  obtain ⟨mt', hmt', ht⟩ := exists_isTreeOf kc hlen'
  rw [leaves_eq ho (Nat.lt_of_succ_lt hlen')] at hr
  cases hmt'.symm.trans hr
  rw [ho.visible_eq_visible halone₀ ha]
  exact ht

lemma Inv.run (hi : Inv kc s) {es : List Event}
    (hc : s.CarefulRun kc es) : Inv kc (s.run kc es) := by
  induction es generalizing s with
  | nil => exact hi
  | cons ev es ih => exact ih (hi.step hc.1) hc.2

end Store

/-- If all calls are careful, the tree for the next call has the count and the root of the rows that
it sees. -/
theorem cache_agrees {keccak : Keccak} {s : Store} (hs : Started keccak s) {events : List Event}
    (hrun : s.CarefulRun keccak events) {dbTx : DbTx} {leaf : L1InfoTreeLeaf} {answers : Answers}
    (husable : (s.run keccak events).usable dbTx = true)
    (hcare : (s.run keccak events).Careful (.addL1InfoTreeLeaf dbTx leaf answers)) : ∃ mt₀,
    resetL1InfoTree keccak.hash ((s.run keccak events).leaves keccak dbTx) = .ok mt₀ ∧ ∀ mt,
    (s.run keccak events).buildL1InfoTreeCacheIfNeed keccak dbTx answers = .ok mt → mt.count =
    mt₀.count ∧ mt.currentRoot = mt₀.currentRoot := by
  have hi := hs.inv.run hrun
  obtain ⟨hal, -, hl⟩ := hcare
  obtain ⟨mt₀, hmt₀, htree₀⟩ := exists_isTreeOf keccak hl
  rw [leaves_eq hi.ordered (Nat.lt_of_succ_lt hl)]
  refine ⟨mt₀, hmt₀, fun mt hmt => ?_⟩
  rcases hi.build husable hal hl answers with hb | ⟨mt', hb, htr⟩
  · cases hb.symm.trans hmt
  cases hb.symm.trans hmt
  refine ⟨htr.represents.count.trans htree₀.represents.count.symm, ?_⟩
  rw [htr.represents.root, htree₀.represents.root, htr.height, htree₀.height]

def plainKeccak : Keccak := ⟨fun _ _ => zeroHash, fun _ _ _ => zeroHash⟩

def plainLeaf : L1InfoTreeLeaf := ⟨zeroHash, zeroHash, 0⟩

/-- The tree for the next call without a transaction has a leaf more than what it sees. -/
def HasLeafTooMuch (events : List Event) : Prop :=
  ∃ mt mt₀, (run plainKeccak ⟨none, [], []⟩ events).buildL1InfoTreeCacheIfNeed plainKeccak
      .nil ⟨true, true, true⟩ = .ok mt ∧
    resetL1InfoTree plainKeccak.hash
      ((run plainKeccak ⟨none, [], []⟩ events).leaves plainKeccak .nil) = .ok mt₀ ∧
    mt.count = 1 ∧ mt₀.count = 0

/-- The leaf stays in the cache after a failed insert, before the commit of its transaction, and
after a failed commit. -/
theorem cache_with_leaf_too_much :
    HasLeafTooMuch [.addL1InfoTreeLeaf .nil plainLeaf ⟨true, true, false⟩] ∧
    HasLeafTooMuch [.beginStateTransaction,
    .addL1InfoTreeLeaf (.stateTx 0) plainLeaf ⟨true, true, true⟩] ∧
    HasLeafTooMuch [.beginStateTransaction,
    .addL1InfoTreeLeaf (.stateTx 0) plainLeaf ⟨true, true, true⟩, .commit 0 false] :=
  ⟨⟨_, _, rfl, rfl, rfl, rfl⟩, ⟨_, _, rfl, rfl, rfl, rfl⟩, ⟨_, _, rfl, rfl, rfl, rfl⟩⟩

lemma Store.alone_of_forall {s : Store} {dbTx : DbTx}
    (h : ∀ tx ∈ s.txs, tx.l1InfoTreeModified = true → tx.status = .closed) : s.Alone dbTx :=
  fun _ tx ht _ => h tx (mem_of_getElem? ht)

/-- One transaction that is committed, one with a failed insert that is rolled back. -/
def plainEvents : List Event :=
  [.beginStateTransaction, .addL1InfoTreeLeaf (.stateTx 0) plainLeaf ⟨true, true, true⟩,
    .commit 0 true, .beginStateTransaction,
    .addL1InfoTreeLeaf (.stateTx 1) plainLeaf ⟨true, true, false⟩, .rollback 1]

theorem cache_agrees_plain : ∃ mt₀, resetL1InfoTree plainKeccak.hash
    ((run plainKeccak ⟨none, [], []⟩ plainEvents).leaves plainKeccak .nil) = .ok mt₀ ∧ ∀ mt,
    (run plainKeccak ⟨none, [], []⟩ plainEvents).buildL1InfoTreeCacheIfNeed plainKeccak .nil
    ⟨true, true, true⟩ = .ok mt → mt.count = mt₀.count ∧ mt.currentRoot = mt₀.currentRoot := by
  have hs : Started plainKeccak ⟨none, [], []⟩ := ⟨rfl, rfl, nofun⟩
  have hr : CarefulRun plainKeccak ⟨none, [], []⟩ plainEvents := by
    refine ⟨trivial, ?_, trivial, trivial, ?_, trivial, trivial⟩
    · exact ⟨alone_of_forall (by decide +kernel), nofun, by decide +kernel⟩
    · exact ⟨alone_of_forall (by decide +kernel), nofun, by decide +kernel⟩
  have hn : (run plainKeccak ⟨none, [], []⟩ plainEvents).Careful
      (.addL1InfoTreeLeaf .nil plainLeaf ⟨true, true, true⟩) :=
    ⟨alone_of_forall (by decide +kernel), fun _ => rfl, by decide +kernel⟩
  exact cache_agrees hs hr rfl hn

end EthdaNode.L1InfoTree
