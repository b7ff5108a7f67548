import EthdaNode.Sequencer.TxTracker
import EthdaNode.Support.GoMap

/-!
# The transactions of one sender

`addrQueue`: the ready transaction of an address, its not ready transactions by
nonce, and the hashes of its forced and pending transactions. The functions
return the queue after the call together with the results of the call.
-/

namespace EthdaNode.Sequencer

open Go State Option GoMap

structure AddrQueue where
  fromAddr : Address
  currentNonce : UInt64
  currentBalance : ℤ
  readyTx : Option TxTracker
  notReadyTxs : GoMap UInt64 TxTracker
  forcedTxs : Finset Hash
  pendingTxsToStore : Finset Hash

def newAddrQueue (addr : Address) (nonce : UInt64) (balance : ℤ) : AddrQueue :=
  ⟨addr, nonce, balance, none, ∅, ∅, ∅⟩

structure AddTxResult where
  newReadyTx : Option TxTracker
  prevReadyTx : Option TxTracker
  replacedTx : Option TxTracker
  dropReason : Option WorkerError
  deriving DecidableEq

def AddTxResult.dropped (reason : WorkerError) : AddTxResult := ⟨none, none, none, some reason⟩

/-- The transaction that is reported as replaced: the old one, if it is not the
same transaction. -/
def replacedBy (tx : TxTracker) (old : Option TxTracker) : Option TxTracker :=
  old.filter fun old => old.hash ≠ tx.hash

/-- The condition under which `addTx` takes `tx` in the place of `old`. -/
def acceptsOver (tx : TxTracker) (old : Option TxTracker) : Bool :=
  match old with
  | none => true
  | some old => tx.gasPrice ≥ old.gasPrice

namespace AddrQueue

variable (a : AddrQueue)

def addTx (tx : TxTracker) : AddrQueue × AddTxResult :=
  if a.currentNonce = tx.nonce then
    if acceptsOver tx a.readyTx then
      let repTx := replacedBy tx a.readyTx
      if a.currentBalance ≥ tx.cost then
        ({ a with readyTx := some tx }, ⟨some tx, a.readyTx, repTx, none⟩)
      else
        ({ a with
            readyTx := none
            notReadyTxs := a.notReadyTxs.insert tx.nonce tx },
          ⟨none, a.readyTx, repTx, none⟩)
    else (a, .dropped .errDuplicatedNonce)
  else if a.currentNonce > tx.nonce then (a, .dropped .errIntrinsicInvalidNonce)
  else
    let nrTx := a.notReadyTxs.lookup tx.nonce
    if acceptsOver tx nrTx then
      ({ a with notReadyTxs := a.notReadyTxs.insert tx.nonce tx },
        ⟨none, none, replacedBy tx nrTx, none⟩)
    else (a, .dropped .errDuplicatedNonce)

variable (txHash th : Hash)

def addForcedTx : AddrQueue := { a with forcedTxs := insert txHash a.forcedTxs }

def addPendingTxToStore : AddrQueue :=
  { a with pendingTxsToStore := insert txHash a.pendingTxsToStore }

/-- `ExpireTransactions`. The clock is read for each transaction, for `tx` as `now tx`. -/
def expireTransactions (maxTime : ℤ) (now : TxTracker → ℤ) :
    AddrQueue × List TxTracker × Option TxTracker :=
  let expired := a.notReadyTxs.values.filter fun tx => tx.expired maxTime (now tx)
  let notReadyTxs :=
    (expired.map TxTracker.nonce).foldl (fun m nonce => m.erase nonce) a.notReadyTxs
  let prevReadyTx := a.readyTx.filter fun tx => tx.expired maxTime (now tx)
  ({ a with
      readyTx := if prevReadyTx.isSome then none else a.readyTx
      notReadyTxs := notReadyTxs },
    expired ++ prevReadyTx.toList, prevReadyTx)

def deleteTx : AddrQueue × Option TxTracker × Bool :=
  if a.readyTx.any fun tx => tx.hash = txHash then
    ({ a with readyTx := none }, a.readyTx, true)
  else
    match a.notReadyTxs.values.find? fun tx => tx.hash = txHash with
    | some tx => ({ a with notReadyTxs := a.notReadyTxs.erase tx.nonce }, some tx, false)
    | none => (a, none, false)

def deleteForcedTx : AddrQueue := { a with forcedTxs := a.forcedTxs.erase txHash }

def deletePendingTxToStore : AddrQueue :=
  { a with pendingTxsToStore := a.pendingTxsToStore.erase txHash }

def getTransactions : List TxTracker := a.readyTx.toList ++ a.notReadyTxs.values

variable (nonce : Option UInt64) (balance : Option ℤ)

/-- The first part of `updateCurrentNonceBalance`: set the balance and the nonce, and take out the
transactions below a new nonce. -/
def setNonceBalance : AddrQueue × List TxTracker :=
  let a := { a with currentBalance := balance.getD a.currentBalance }
  match nonce with
  | none => (a, [])
  | some nonce =>
    if a.currentNonce ≠ nonce then
      let txsToDelete := (a.notReadyTxs.values.filter fun tx => tx.nonce < nonce).map
        fun tx => { tx with failedReason := some intrinsicInvalidNonceText }
      ({ a with
          currentNonce := nonce
          notReadyTxs := (txsToDelete.map TxTracker.nonce).foldl
            (fun m nonce => m.erase nonce) a.notReadyTxs }, txsToDelete)
    else (a, [])

/-- The second part: take the ready transaction out if its nonce or the balance
does not allow it any more. -/
def dropReady : AddrQueue × Option TxTracker :=
  let oldReadyTx := a.readyTx.filter fun tx =>
    tx.nonce ≠ a.currentNonce ∨ a.currentBalance < tx.cost
  ({ a with readyTx := if oldReadyTx.isSome then none else a.readyTx }, oldReadyTx)

/-- The third part: take the ready transaction from the not ready ones. -/
def promote : AddrQueue :=
  if a.readyTx = none then
    match a.notReadyTxs.lookup a.currentNonce with
    | some nrTx =>
      if a.currentBalance ≥ nrTx.cost then
        { a with
          readyTx := some nrTx
          notReadyTxs := a.notReadyTxs.erase a.currentNonce }
      else a
    | none => a
  else a

/-- The last part: the old ready transaction becomes a not ready one if its nonce is still to come,
and is to be deleted otherwise. -/
def keepOld : Option TxTracker → AddrQueue × List TxTracker
  | none => (a, [])
  | some old =>
    if old.nonce > a.currentNonce then
      ({ a with notReadyTxs := a.notReadyTxs.insert old.nonce old }, [])
    else (a, [{ old with failedReason := some intrinsicInvalidNonceText }])

/-- `updateCurrentNonceBalance`: the new ready transaction, the previous one if it is not ready any
more, and those to delete, which carry the failed reason. -/
def updateCurrentNonceBalance : AddrQueue × Option TxTracker × Option TxTracker × List TxTracker :=
  let set := a.setNonceBalance nonce balance
  let dropped := set.1.dropReady
  let promoted := dropped.1.promote
  let kept := promoted.keepOld dropped.2
  (kept.1, promoted.readyTx, dropped.2, set.2 ++ kept.2)

/-- The tracker that `UpdateTxZKCounters` writes to. -/
def trackerOf : Option TxTracker :=
  if a.readyTx.any fun tx => tx.hash = txHash then a.readyTx
  else a.notReadyTxs.values.find? fun tx => tx.hash = txHash

/-! ## What a queue holds -/

def Holds (t : TxTracker) : Prop := a.readyTx = some t ∨ ∃ n, a.notReadyTxs.lookup n = some t

lemma mem_txs_iff (t : TxTracker) : t ∈ a.getTransactions ↔ a.Holds t := by
  rw [getTransactions, List.mem_append, mem_toList, mem_values_iff]
  rfl

lemma not_holds_new (addr : Address) (nonce : UInt64) (bal : ℤ)
    (t : TxTracker) : ¬(newAddrQueue addr nonce bal).Holds t := by
  simp [Holds, newAddrQueue]

/-- Every place of `a'` that is in use is in use in `a`, by the same
transaction. -/
structure Shrinks (a a' : AddrQueue) : Prop where
  ready : ∀ t, a'.readyTx = some t → a.readyTx = some t
  notReady : ∀ n t, a'.notReadyTxs.lookup n = some t → a.notReadyTxs.lookup n = some t

variable {a : AddrQueue} {t : TxTracker}

lemma Shrinks.holds {a' : AddrQueue} (h : Shrinks a a') (ht : a'.Holds t) : a.Holds t := by
  rcases ht with ht | ⟨n, ht⟩
  · exact .inl (h.ready t ht)
  · exact .inr ⟨n, h.notReady n t ht⟩

lemma lookup_of_erase {m : GoMap UInt64 TxTracker} {n n' : UInt64}
    (h : (m.erase n).lookup n' = some t) : n' ≠ n ∧ m.lookup n' = some t := by
  rw [lookup_erase_eq] at h
  split at h
  · cases h
  · next hn => exact ⟨hn, h⟩

/-- What `addTx` does: it drops the transaction, makes it the ready one, puts it
aside for lack of balance, or puts it aside for its nonce. -/
lemma addTx_cases (a : AddrQueue) (tx : TxTracker) : (∃ reason, a.addTx tx = (a, .dropped reason)) ∨
    (a.currentNonce = tx.nonce ∧ acceptsOver tx a.readyTx = true ∧ tx.cost ≤ a.currentBalance ∧
    a.addTx tx = ({ a with readyTx := some tx },
    ⟨some tx, a.readyTx, replacedBy tx a.readyTx, none⟩)) ∨
    (a.currentNonce = tx.nonce ∧ acceptsOver tx a.readyTx = true ∧ a.currentBalance < tx.cost ∧
    a.addTx tx = ({ a with
    readyTx := none
    notReadyTxs := a.notReadyTxs.insert tx.nonce tx },
    ⟨none, a.readyTx, replacedBy tx a.readyTx, none⟩)) ∨
    (a.currentNonce < tx.nonce ∧ acceptsOver tx (a.notReadyTxs.lookup tx.nonce) = true ∧
    a.addTx tx = ({ a with notReadyTxs := a.notReadyTxs.insert tx.nonce tx },
    ⟨none, none, replacedBy tx (a.notReadyTxs.lookup tx.nonce), none⟩)) := by
  by_cases hn : a.currentNonce = tx.nonce
  · by_cases ha : acceptsOver tx a.readyTx = true
    · by_cases hb : a.currentBalance ≥ tx.cost
      · refine .inr (.inl ⟨hn, ha, hb, ?_⟩)
        rw [addTx, if_pos hn, if_pos ha, if_pos hb]
      · refine .inr (.inr (.inl ⟨hn, ha, by omega, ?_⟩))
        rw [addTx, if_pos hn, if_pos ha, if_neg hb]
    · refine .inl ⟨.errDuplicatedNonce, ?_⟩
      rw [addTx, if_pos hn, if_neg ha]
  by_cases hl : a.currentNonce > tx.nonce
  · refine .inl ⟨.errIntrinsicInvalidNonce, ?_⟩
    rw [addTx, if_neg hn, if_pos hl]
  by_cases ha : acceptsOver tx (a.notReadyTxs.lookup tx.nonce) = true
  · have ht : a.currentNonce < tx.nonce := UInt64.lt_of_le_of_ne (UInt64.not_lt.mp hl) hn
    refine .inr (.inr (.inr ⟨ht, ha, ?_⟩))
    rw [addTx, if_neg hn, if_neg hl, if_pos ha]
  · refine .inl ⟨.errDuplicatedNonce, ?_⟩
    rw [addTx, if_neg hn, if_neg hl, if_neg ha]

lemma holds_addTx {tx : TxTracker} (h : (a.addTx tx).1.Holds t) : t = tx ∨ a.Holds t := by
  have hi : ∀ n, (a.notReadyTxs.insert tx.nonce tx).lookup n = some t → t = tx ∨ a.Holds t := by
    intro n hl
    rw [lookup_insert_eq] at hl
    split at hl
    · exact .inl (some.inj hl).symm
    · exact .inr (.inr ⟨n, hl⟩)
  rcases a.addTx_cases tx with
    ⟨_, heq⟩ | ⟨_, _, _, heq⟩ | ⟨_, _, _, heq⟩ | ⟨_, _, heq⟩
  · rw [heq] at h
    exact .inr h
  · rw [heq] at h
    rcases h with h | h
    · exact .inl (some.inj h).symm
    · exact .inr (.inr h)
  · rw [heq] at h
    rcases h with h | ⟨n, h⟩
    · cases h
    · exact hi n h
  rw [heq] at h
  rcases h with h | ⟨n, h⟩
  · exact .inr (.inl h)
  · exact hi n h

/-- How the results tell that the ready transaction went from `r` to `r'`: both are reported, or it
is unchanged and none is to be deleted. -/
def Mirrors (r r' prevReadyTx newReadyTx : Option TxTracker) : Prop :=
  (prevReadyTx = r ∧ newReadyTx = r') ∨
    (prevReadyTx = none ∧ r' = r ∧ (newReadyTx = none ∨ newReadyTx = r))

lemma addTx_mirrors (a : AddrQueue) (tx : TxTracker) : Mirrors a.readyTx (a.addTx tx).1.readyTx
    (a.addTx tx).2.prevReadyTx (a.addTx tx).2.newReadyTx := by
  rcases a.addTx_cases tx with
    ⟨_, heq⟩ | ⟨_, _, _, heq⟩ | ⟨_, _, _, heq⟩ | ⟨_, _, heq⟩
  · rw [heq]
    exact .inr ⟨rfl, rfl, .inl rfl⟩
  · rw [heq]
    exact .inl ⟨rfl, rfl⟩
  · rw [heq]
    exact .inl ⟨rfl, rfl⟩
  · rw [heq]
    exact .inr ⟨rfl, rfl, .inl rfl⟩

/-- What `deleteTx` does: it takes out the ready transaction or one of the
others, or finds nothing. -/
lemma deleteTx_cases (a : AddrQueue) (th : Hash) :
    (∃ tx, a.readyTx = some tx ∧ tx.hash = th ∧
    a.deleteTx th = ({ a with readyTx := none }, some tx, true)) ∨
    (∃ tx n, a.notReadyTxs.lookup n = some tx ∧ tx.hash = th ∧ a.deleteTx th =
    ({ a with notReadyTxs := a.notReadyTxs.erase tx.nonce }, some tx, false)) ∨
    a.deleteTx th = (a, none, false) := by
  by_cases hr : a.readyTx.any fun tx => tx.hash = th
  · obtain ⟨tx, ht, hh⟩ := (any_eq_true _ _).mp hr
    refine .inl ⟨tx, ht, by simpa using hh, ?_⟩
    rw [deleteTx, if_pos hr, ht]
  cases hf : a.notReadyTxs.values.find? fun tx => tx.hash = th with
  | none =>
    refine .inr (.inr ?_)
    rw [deleteTx, if_neg hr, hf]
  | some tx =>
    obtain ⟨n, hn⟩ := (mem_values_iff _ tx).mp (List.mem_of_find?_eq_some hf)
    have hh := List.find?_some hf
    refine .inr (.inl ⟨tx, n, hn, by simpa using hh, ?_⟩)
    rw [deleteTx, if_neg hr, hf]

lemma shrinks_deleteTx (a : AddrQueue) (th : Hash) : Shrinks a (a.deleteTx th).1 := by
  rcases a.deleteTx_cases th with
    ⟨tx, _, _, heq⟩ | ⟨tx, n, _, _, heq⟩ | heq
  · rw [heq]
    exact ⟨fun t ht => absurd ht (some_ne_none t).symm, fun n t ht => ht⟩
  · rw [heq]
    exact ⟨fun t ht => ht, fun n' t ht => (lookup_of_erase ht).2⟩
  · rw [heq]
    exact ⟨fun t ht => ht, fun n t ht => ht⟩

lemma deleteTx_mirrors (a : AddrQueue) (th : Hash) :
    Mirrors a.readyTx (a.deleteTx th).1.readyTx
    (if (a.deleteTx th).2.2 then (a.deleteTx th).2.1 else none) none := by
  rcases a.deleteTx_cases th with
    ⟨tx, hrdy, _, heq⟩ | ⟨tx, n, _, _, heq⟩ | heq
  · rw [heq]
    exact .inl ⟨hrdy.symm, rfl⟩
  · rw [heq]
    exact .inr ⟨rfl, rfl, .inl rfl⟩
  · rw [heq]
    exact .inr ⟨rfl, rfl, .inl rfl⟩

lemma deleteTx_currentNonce (a : AddrQueue) (th : Hash) :
    (a.deleteTx th).1.currentNonce = a.currentNonce := by
  rcases a.deleteTx_cases th with
    ⟨tx, _, _, heq⟩ | ⟨tx, n, _, _, heq⟩ | heq
  · rw [heq]
  · rw [heq]
  · rw [heq]

lemma holds_of_deleteTx {th : Hash} (h : (a.deleteTx th).2.1 = some t) :
    a.Holds t ∧ t.hash = th := by
  rcases a.deleteTx_cases th with
    ⟨tx, hrdy, hhash, heq⟩ | ⟨tx, n, hn, hhash, heq⟩ | heq
  · rw [heq, some.injEq] at h
    exact h ▸ ⟨.inl hrdy, hhash⟩
  · rw [heq, some.injEq] at h
    exact h ▸ ⟨.inr ⟨n, hn⟩, hhash⟩
  · rw [heq] at h
    cases h

lemma shrinks_expire (a : AddrQueue) (maxT : ℤ) (now : TxTracker → ℤ) : Shrinks a
    (a.expireTransactions maxT now).1 where
  ready := by
    intro t ht
    simp only [expireTransactions] at ht
    split at ht
    · cases ht
    · exact ht
  notReady := by
    intro n t ht
    simp only [expireTransactions, lookup_foldl_erase] at ht
    split at ht
    · cases ht
    · exact ht

lemma expire_cases (a : AddrQueue) (maxT : ℤ) (now : TxTracker → ℤ) :
    ((a.expireTransactions maxT now).2.2 = a.readyTx ∧ (a.expireTransactions maxT now).1.readyTx =
    none) ∨ ((a.expireTransactions maxT now).2.2 = none ∧
    (a.expireTransactions maxT now).1.readyTx = a.readyTx) := by
  simp only [expireTransactions]
  rcases hr : a.readyTx with _ | tx
  · exact .inr ⟨rfl, rfl⟩
  by_cases he : tx.expired maxT (now tx) = true
  · exact .inl (by simp [he])
  · exact .inr (by simp [he])

lemma expire_mirrors (a : AddrQueue) (maxT : ℤ) (now : TxTracker → ℤ) : Mirrors a.readyTx
    (a.expireTransactions maxT now).1.readyTx (a.expireTransactions maxT now).2.2 none := by
  rcases a.expire_cases maxT now with ⟨hp, hr⟩ | ⟨hp, hr⟩
  · exact .inl ⟨hp, hr.symm⟩
  · exact .inr ⟨hp, hr, .inl rfl⟩

lemma holds_of_expired {maxT : ℤ} {now : TxTracker → ℤ}
    (h : t ∈ (a.expireTransactions maxT now).2.1) : a.Holds t ∧ t.expired maxT (now t) = true := by
  simp only [expireTransactions, List.mem_append, List.mem_filter,
    mem_values_iff, mem_toList, filter_eq_some_iff] at h
  rcases h with ⟨hm, he⟩ | ⟨hr, he⟩
  · exact ⟨.inr hm, he⟩
  · exact ⟨.inl hr, he⟩

/-! ## `updateCurrentNonceBalance` -/

lemma setNonce_readyTx (a : AddrQueue) (nonce : Option UInt64) (bal : Option ℤ) :
    (a.setNonceBalance nonce bal).1.readyTx = a.readyTx := by
  unfold setNonceBalance
  rcases nonce with _ | nonce
  · rfl
  simp only
  split
  · rfl
  · rfl

lemma shrinks_setNonce (a : AddrQueue) (nonce : Option UInt64) (bal : Option ℤ) : Shrinks a
    (a.setNonceBalance nonce bal).1 where
  ready := by
    intro t ht
    rwa [setNonce_readyTx] at ht
  notReady := by
    intro n t ht
    unfold setNonceBalance at ht
    rcases nonce with _ | nonce
    · exact ht
    simp only at ht
    split at ht
    · rw [lookup_foldl_erase] at ht
      split at ht
      · cases ht
      · exact ht
    · exact ht

lemma dropReady_cases (a : AddrQueue) : (a.dropReady = (a, none) ∧ ∀ tx, a.readyTx = some tx →
    tx.nonce = a.currentNonce ∧ tx.cost ≤ a.currentBalance) ∨
    ∃ tx, a.readyTx = some tx ∧ (tx.nonce ≠ a.currentNonce ∨ a.currentBalance < tx.cost) ∧
    a.dropReady = ({ a with readyTx := none }, some tx) := by
  cases ho : a.readyTx.filter fun tx =>
      tx.nonce ≠ a.currentNonce ∨ a.currentBalance < tx.cost with
  | none =>
    refine .inl ⟨by simp only [dropReady, ho]; rfl, ?_⟩
    intro tx ht
    have hk := filter_eq_none_iff.mp ho tx ht
    simpa [not_or] using hk
  | some tx =>
    obtain ⟨hr, hd⟩ := filter_eq_some_iff.mp ho
    refine .inr ⟨tx, hr, by simpa using hd, ?_⟩
    simp only [dropReady, ho]
    rfl

lemma shrinks_dropReady (a : AddrQueue) : Shrinks a a.dropReady.1 := by
  rcases a.dropReady_cases with ⟨he, _⟩ | ⟨tx, _, _, he⟩
  · rw [he]
    exact ⟨fun t ht => ht, fun n t ht => ht⟩
  · rw [he]
    exact ⟨fun t ht => absurd ht (some_ne_none t).symm, fun n t ht => ht⟩

lemma dropReady_some_iff : a.dropReady.2 = some t ↔
    a.readyTx = some t ∧ (t.nonce ≠ a.currentNonce ∨ a.currentBalance < t.cost) := by
  simp [dropReady, filter_eq_some_iff]

lemma promote_cases (a : AddrQueue) :
    (a.promote = a ∧ (a.readyTx = none → ∀ tx, a.notReadyTxs.lookup a.currentNonce = some tx →
    a.currentBalance < tx.cost)) ∨
    ∃ tx, a.readyTx = none ∧ a.notReadyTxs.lookup a.currentNonce = some tx ∧
    tx.cost ≤ a.currentBalance ∧
    a.promote = { a with
    readyTx := some tx
    notReadyTxs := a.notReadyTxs.erase a.currentNonce } := by
  by_cases hr : a.readyTx = none
  · cases hl : a.notReadyTxs.lookup a.currentNonce with
    | none =>
      refine .inl ⟨?_, fun _ tx h => by cases h⟩
      rw [promote, if_pos hr, hl]
    | some tx =>
      by_cases hb : a.currentBalance ≥ tx.cost
      · refine .inr ⟨tx, hr, rfl, hb, ?_⟩
        rw [promote, if_pos hr, hl]
        exact if_pos hb
      refine .inl ⟨?_, ?_⟩
      · rw [promote, if_pos hr, hl]
        exact if_neg hb
      intro _ tx' ht
      rw [← some.inj ht]
      omega
  · refine .inl ⟨by rw [promote, if_neg hr], fun h => absurd h hr⟩

lemma keepOld_readyTx (a : AddrQueue) (old : Option TxTracker) :
    (a.keepOld old).1.readyTx = a.readyTx := by
  rcases old with _ | old
  · rfl
  rw [keepOld]
  split
  · rfl
  · rfl

lemma holds_keepOld {old : Option TxTracker} (h : (a.keepOld old).1.Holds t) :
    old = some t ∨ a.Holds t := by
  rcases old with _ | old
  · exact .inr h
  rw [keepOld] at h
  split at h
  · rcases h with h | ⟨n, h⟩
    · exact .inr (.inl h)
    rw [lookup_insert_eq] at h
    split at h
    · exact .inl h
    · exact .inr (.inr ⟨n, h⟩)
  · exact .inr h

lemma holds_promote (h : a.promote.Holds t) : a.Holds t := by
  rcases a.promote_cases with ⟨he, _⟩ | ⟨tx, _, hl, _, he⟩
  · rwa [he] at h
  rw [he] at h
  rcases h with h | ⟨n, h⟩
  · exact .inr ⟨_, hl.trans h⟩
  · exact .inr ⟨n, (lookup_of_erase h).2⟩

lemma holds_updateNonceBal {nonce : Option UInt64} {bal : Option ℤ}
    (h : (a.updateCurrentNonceBalance nonce bal).1.Holds t) : a.Holds t := by
  refine (a.shrinks_setNonce nonce bal).holds ?_
  rcases holds_keepOld h with ho | h
  · exact .inl (dropReady_some_iff.mp ho).1
  · exact (shrinks_dropReady _).holds (holds_promote h)

lemma updateNonceBal_mirrors (a : AddrQueue) (nonce : Option UInt64) (bal : Option ℤ) : Mirrors
    a.readyTx (a.updateCurrentNonceBalance nonce bal).1.readyTx
    (a.updateCurrentNonceBalance nonce bal).2.2.1 (a.updateCurrentNonceBalance nonce bal).2.1 := by
  have hs := a.setNonce_readyTx nonce bal
  simp only [updateCurrentNonceBalance, keepOld_readyTx]
  generalize (a.setNonceBalance nonce bal).1 = b at hs ⊢
  rw [← hs]
  rcases b.dropReady_cases with ⟨he, _⟩ | ⟨tx, hr, _, he⟩
  · rw [he]
    rcases b.promote_cases with ⟨hp, _⟩ | ⟨tx, hr, _, _, hp⟩
    · exact .inr ⟨rfl, by rw [hp], .inr (by rw [hp])⟩
    · exact .inl ⟨hr.symm, rfl⟩
  · rw [he]
    exact .inl ⟨hr.symm, rfl⟩

end AddrQueue

end EthdaNode.Sequencer
