import EthdaNode.Sequencer.AddrQueue

/-!
# What a queue keeps

The runs of an `addrQueue` under `addTx`, `updateCurrentNonceBalance`,
`deleteTx` and `expireTransactions`. In every run the not ready transactions
are stored under their nonce and the ready transaction has the current nonce.

The branch of `addTx` for the current nonce looks at the ready transaction only,
while a transaction of that nonce may be among the not ready ones for lack of
balance. `ClearFor` says when this does no harm: then no nonce is used twice
and no transaction gets lost without being reported.
-/

namespace EthdaNode.Sequencer

open Go State Option AList

def TxTracker.Same (s t : TxTracker) : Prop := s.hash = t.hash ∧ s.nonce = t.nonce

namespace AddrQueue

structure Keyed (a : AddrQueue) : Prop where
  ready_nonce : ∀ t, a.readyTx = some t → t.nonce = a.currentNonce
  key_eq : ∀ n t, a.notReadyTxs.lookup n = some t → t.nonce = n

/-- No nonce is held at once by the ready transaction and by a not ready one. -/
def SharesNoNonce (a : AddrQueue) : Prop :=
  ∀ r, a.readyTx = some r → ∀ n t, a.notReadyTxs.lookup n = some t → t.nonce ≠ r.nonce

lemma keyed_new (addr : Address) (nonce : UInt64) (bal : ℤ) :
    (newAddrQueue addr nonce bal).Keyed where
  ready_nonce := by
    intro t ht
    cases ht
  key_eq := by
    intro n t ht
    cases ht

variable {a : AddrQueue}

lemma Shrinks.keyed {a' : AddrQueue} (h : Shrinks a a') (ha : a.Keyed)
    (hn : ∀ t, a'.readyTx = some t → t.nonce = a'.currentNonce) : a'.Keyed where
  ready_nonce := hn
  key_eq := fun n t ht => ha.key_eq n t (h.notReady n t ht)

lemma Shrinks.sharesNoNonce {a' : AddrQueue} (h : Shrinks a a')
    (ha : a.SharesNoNonce) : a'.SharesNoNonce :=
  fun r hr n t ht => ha r (h.ready r hr) n t (h.notReady n t ht)

/-! ## `addTx` -/

lemma acceptsOver_iff (tx : TxTracker) (old : Option TxTracker) :
    acceptsOver tx old = true ↔ ∀ t, old = some t → t.gasPrice ≤ tx.gasPrice := by
  cases old with
  | _ => simp [acceptsOver]

lemma replacedBy_eq (tx t : TxTracker) :
    replacedBy tx (some t) = if t.hash = tx.hash then none else some t := by
  by_cases h : t.hash = tx.hash
  · simp [replacedBy, h]
  · simp [replacedBy, h]

variable {tx t : TxTracker}

lemma replacedBy_eq_some {old : Option TxTracker} (h : replacedBy tx old = some t) : old = some t :=
  (filter_eq_some_iff.mp h).1

lemma holds_of_replacedTx (ha : a.Keyed) (h : (a.addTx tx).2.replacedTx = some t) :
    a.Holds t ∧ t.nonce = tx.nonce := by
  rcases a.addTx_cases tx with
    ⟨_, heq⟩ | ⟨hnonce, _, _, heq⟩ | ⟨hnonce, _, _, heq⟩ | ⟨_, _, heq⟩
  · rw [heq] at h
    cases h
  · rw [heq] at h
    have hr := replacedBy_eq_some h
    exact ⟨.inl hr, (ha.ready_nonce t hr).trans hnonce⟩
  · rw [heq] at h
    have hr := replacedBy_eq_some h
    exact ⟨.inl hr, (ha.ready_nonce t hr).trans hnonce⟩
  rw [heq] at h
  have hl := replacedBy_eq_some h
  exact ⟨.inr ⟨_, hl⟩, ha.key_eq _ t hl⟩

lemma holds_of_addTx_accepted (h : (a.addTx tx).2.dropReason = none) : (a.addTx tx).1.Holds tx := by
  rcases a.addTx_cases tx with
    ⟨_, heq⟩ | ⟨_, _, _, heq⟩ | ⟨_, _, _, heq⟩ | ⟨_, _, heq⟩
  · rw [heq] at h
    cases h
  · rw [heq]
    exact .inl rfl
  · rw [heq]
    exact .inr ⟨tx.nonce, lookup_insert _⟩
  · rw [heq]
    exact .inr ⟨tx.nonce, lookup_insert _⟩

lemma addTx_dropped (h : (a.addTx tx).2.dropReason ≠ none) : (a.addTx tx).1 = a := by
  rcases a.addTx_cases tx with
    ⟨_, heq⟩ | ⟨_, _, _, heq⟩ | ⟨_, _, _, heq⟩ | ⟨_, _, heq⟩
  · rw [heq]
  · exact absurd (by rw [heq]) h
  · exact absurd (by rw [heq]) h
  · exact absurd (by rw [heq]) h

lemma keyed_addTx (ha : a.Keyed) (tx : TxTracker) : (a.addTx tx).1.Keyed := by
  have hi : ∀ n t, (a.notReadyTxs.insert tx.nonce tx).lookup n = some t → t.nonce = n := by
    intro n t ht
    rw [GoMap.lookup_insert_eq] at ht
    split at ht
    · next hn => rw [hn, some.inj ht]
    · exact ha.key_eq n t ht
  rcases a.addTx_cases tx with
    ⟨_, heq⟩ | ⟨hnonce, _, _, heq⟩ | ⟨_, _, _, heq⟩ | ⟨_, _, heq⟩
  · rwa [heq]
  · rw [heq]
    refine ⟨?_, ha.key_eq⟩
    intro t ht
    rw [← some.inj ht, hnonce]
  · rw [heq]
    exact ⟨fun t ht => absurd ht (some_ne_none t).symm, hi⟩
  · rw [heq]
    exact ⟨ha.ready_nonce, hi⟩

/-- `addTx` puts `tx` aside for lack of balance over the transaction `t`, which
it does not look at. -/
def Overwrites (a : AddrQueue) (tx t : TxTracker) : Prop :=
  a.currentNonce = tx.nonce ∧ a.currentBalance < tx.cost ∧
    a.notReadyTxs.lookup tx.nonce = some t ∧ t.hash ≠ tx.hash

/-- What becomes of a transaction in the queue when `addTx` accepts another: it
is still there, it is reported as replaced, or it is overwritten. -/
lemma addTx_keeps (ha : a.Keyed) (ht : a.Holds t) : (∃ t', (a.addTx tx).1.Holds t' ∧ t'.Same t) ∨
    ((a.addTx tx).2.replacedTx = some t ∧ t.nonce = tx.nonce ∧ t.gasPrice ≤ tx.gasPrice) ∨
    a.Overwrites tx t := by
  -- the transaction in the place that `tx` takes is reported, unless it is `tx`
  have hp : ∀ {old : Option TxTracker}, old = some t →
      t.nonce = tx.nonce → acceptsOver tx old = true →
      (a.addTx tx).2.replacedTx = replacedBy tx old → (a.addTx tx).1.Holds tx →
      (∃ t', (a.addTx tx).1.Holds t' ∧ t'.Same t) ∨
      ((a.addTx tx).2.replacedTx = some t ∧ t.nonce = tx.nonce ∧
      t.gasPrice ≤ tx.gasPrice) ∨ a.Overwrites tx t := by
    intro old ho hnn hc hr hl
    by_cases hh : t.hash = tx.hash
    · exact .inl ⟨tx, hl, hh.symm, hnn.symm⟩
    · refine .inr (.inl ⟨?_, hnn, (acceptsOver_iff tx old).mp hc t ho⟩)
      rw [hr, ho, replacedBy_eq, if_neg hh]
  rcases a.addTx_cases tx with
    ⟨_, heq⟩ | ⟨hnn, hc, _, heq⟩ | ⟨hnn, hc, hbal, heq⟩ | ⟨hnn, hc, heq⟩
  · exact .inl ⟨t, by rwa [heq], rfl, rfl⟩
  · rcases ht with ht | ⟨n, ht⟩
    · exact hp ht ((ha.ready_nonce t ht).trans hnn) hc (by rw [heq])
        (by rw [heq]; exact .inl rfl)
    · exact .inl ⟨t, by rw [heq]; exact .inr ⟨n, ht⟩, rfl, rfl⟩
  · rcases ht with ht | ⟨n, ht⟩
    · exact hp ht ((ha.ready_nonce t ht).trans hnn) hc (by rw [heq])
        (by rw [heq]; exact .inr ⟨tx.nonce, lookup_insert _⟩)
    by_cases hn : n = tx.nonce
    · subst hn
      by_cases hh : t.hash = tx.hash
      · refine .inl ⟨tx, ?_, hh.symm, (ha.key_eq _ t ht).symm⟩
        rw [heq]
        exact .inr ⟨tx.nonce, lookup_insert _⟩
      · exact .inr (.inr ⟨hnn, hbal, ht, hh⟩)
    · refine .inl ⟨t, ?_, rfl, rfl⟩
      rw [heq]
      exact .inr ⟨n, (lookup_insert_ne hn).trans ht⟩
  · rcases ht with ht | ⟨n, ht⟩
    · exact .inl ⟨t, by rw [heq]; exact .inl ht, rfl, rfl⟩
    by_cases hn : n = tx.nonce
    · subst hn
      exact hp ht (ha.key_eq _ t ht) hc (by rw [heq])
        (by rw [heq]; exact .inr ⟨tx.nonce, lookup_insert _⟩)
    refine .inl ⟨t, ?_, rfl, rfl⟩
    rw [heq]
    exact .inr ⟨n, (lookup_insert_ne hn).trans ht⟩

/-- The place for `tx` among the not ready ones is free if `tx` has the current nonce, or `tx` lacks
balance and is there already. -/
def ClearFor (a : AddrQueue) (tx : TxTracker) : Prop :=
  a.currentNonce = tx.nonce → ∀ t, a.notReadyTxs.lookup tx.nonce = some t →
    a.currentBalance < tx.cost ∧ t.hash = tx.hash

/-- `addTx` keeps each transaction of the queue but one of the same nonce and no higher gas price
that is reported as replaced. -/
def AddKeeps (a : AddrQueue) (tx : TxTracker) : Prop :=
  ∀ t, a.Holds t → (∃ t', (a.addTx tx).1.Holds t' ∧ t'.Same t) ∨
    ((a.addTx tx).2.replacedTx = some t ∧ t.nonce = tx.nonce ∧ t.gasPrice ≤ tx.gasPrice)

section
variable (ha : a.Keyed)
include ha

lemma addKeeps_of_clearFor (hc : a.ClearFor tx) : a.AddKeeps tx := by
  intro t ht
  rcases addTx_keeps ha ht with hk | hr | ⟨hn, _, hl, hh⟩
  · exact .inl hk
  · exact .inr hr
  · exact absurd (hc hn t hl).2 hh

lemma SharesNoNonce.insert (hs : a.SharesNoNonce) (hl : a.currentNonce < tx.nonce) :
    { a with notReadyTxs := a.notReadyTxs.insert tx.nonce tx }.SharesNoNonce := by
  intro r hr n t ht
  rw [GoMap.lookup_insert_eq] at ht
  split at ht
  · rw [← some.inj ht, ha.ready_nonce r hr]
    exact (UInt64.ne_of_lt hl).symm
  · exact hs r hr n t ht

lemma unshared_addTx (hs : a.SharesNoNonce) (hc : a.ClearFor tx) :
    (a.addTx tx).1.SharesNoNonce := by
  rcases a.addTx_cases tx with
    ⟨_, heq⟩ | ⟨hnonce, _, hbal, heq⟩ | ⟨_, _, _, heq⟩ | ⟨hnonce, _, heq⟩
  · rwa [heq]
  · rw [heq]
    intro r hr n t ht hh
    rw [← some.inj hr] at hh
    have hl : a.notReadyTxs.lookup tx.nonce = some t := by
      rw [← hh, ha.key_eq n t ht]
      exact ht
    have hw := (hc hnonce t hl).1
    omega
  · rw [heq]
    intro r hr
    cases hr
  · rw [heq]
    exact hs.insert ha hnonce

/-- If the place is not clear, `addTx` leaves a nonce used twice or loses a
transaction. -/
lemma clearFor_of_addKeeps (hs : a.SharesNoNonce) (hsh : (a.addTx tx).1.SharesNoNonce)
    (hkp : a.AddKeeps tx) : a.ClearFor tx := by
  intro hnn t ht
  have htn := ha.key_eq _ t ht
  have hd : a.readyTx = none := by
    cases hr : a.readyTx with
    | none => rfl
    | some r =>
      have hrn := ha.ready_nonce r hr
      exact absurd (htn.trans (hnn.symm.trans hrn.symm)) (hs r hr _ t ht)
  have hc : acceptsOver tx a.readyTx = true := by
    rw [hd]
    rfl
  by_cases hb : a.currentBalance ≥ tx.cost
  · have he : (a.addTx tx).1 = { a with readyTx := some tx } := by
      rw [addTx, if_pos hnn, if_pos hc, if_pos hb]
    rw [he] at hsh
    exact absurd htn (hsh tx rfl _ t ht)
  refine ⟨by omega, ?_⟩
  have he : a.addTx tx = ({ a with
        readyTx := none
        notReadyTxs := a.notReadyTxs.insert tx.nonce tx },
      ⟨none, a.readyTx, replacedBy tx a.readyTx, none⟩) := by
    rw [addTx, if_pos hnn, if_pos hc, if_neg hb]
  rcases hkp t (.inr ⟨_, ht⟩) with ⟨t', ht', hh, ho⟩ | ⟨hp, _⟩
  · have hk := keyed_addTx ha tx
    rw [he] at ht' hk
    rcases ht' with ht' | ⟨n, ht'⟩
    · cases ht'
    have hn : n = tx.nonce := (hk.key_eq n t' ht').symm.trans (ho.trans htn)
    rw [hn, lookup_insert] at ht'
    rw [← hh, some.inj ht']
  · rw [he, hd] at hp
    cases hp

lemma keyed_deleteTx (th : Hash) : (a.deleteTx th).1.Keyed := by
  have hs := a.shrinks_deleteTx th
  refine hs.keyed ha fun t ht => ?_
  rw [ha.ready_nonce t (hs.ready t ht), deleteTx_currentNonce]

lemma keyed_expire (mt : ℤ) (now : TxTracker → ℤ) : (a.expireTransactions mt now).1.Keyed := by
  have hs := a.shrinks_expire mt now
  exact hs.keyed ha fun t ht => ha.ready_nonce t (hs.ready t ht)
end

lemma keyed_dropReady (hk : ∀ n t, a.notReadyTxs.lookup n = some t → t.nonce = n) :
    a.dropReady.1.Keyed := by
  rcases a.dropReady_cases with ⟨he, hr⟩ | ⟨tx, _, _, he⟩
  · rw [he]
    exact ⟨fun t ht => (hr t ht).1, hk⟩
  · rw [he]
    exact ⟨fun t ht => absurd ht (some_ne_none t).symm, hk⟩

section
variable (ha : a.Keyed)
include ha

lemma keyed_promote : a.promote.Keyed := by
  rcases a.promote_cases with ⟨he, _⟩ | ⟨tx, _, hl, _, he⟩
  · rwa [he]
  rw [he]
  refine ⟨?_, fun n t ht => ha.key_eq n t (lookup_of_erase ht).2⟩
  intro t ht
  rw [← some.inj ht]
  exact ha.key_eq _ tx hl

lemma unshared_promote (hs : a.SharesNoNonce) : a.promote.SharesNoNonce := by
  rcases a.promote_cases with ⟨he, _⟩ | ⟨tx, _, hl, _, he⟩
  · rwa [he]
  rw [he]
  intro r hr n t ht
  obtain ⟨hn, ht⟩ := lookup_of_erase ht
  rw [← some.inj hr, ha.key_eq n t ht, ha.key_eq _ tx hl]
  exact hn

lemma keyed_keepOld (old : Option TxTracker) : (a.keepOld old).1.Keyed := by
  rcases old with _ | old
  · exact ha
  rw [keepOld]
  split
  · refine ⟨ha.ready_nonce, ?_⟩
    intro n t ht
    rw [GoMap.lookup_insert_eq] at ht
    split at ht
    · next hn => rw [hn, some.inj ht]
    · exact ha.key_eq n t ht
  · exact ha

lemma unshared_keepOld (hs : a.SharesNoNonce) (old : Option TxTracker) :
    (a.keepOld old).1.SharesNoNonce := by
  rcases old with _ | old
  · exact hs
  rw [keepOld]
  split
  · next hl => exact hs.insert ha hl
  · exact hs

lemma keyed_updateNonceBal (nonce : Option UInt64) (bal : Option ℤ) :
    (a.updateCurrentNonceBalance nonce bal).1.Keyed := by
  refine keyed_keepOld (keyed_promote (keyed_dropReady ?_)) _
  intro n t ht
  exact ha.key_eq n t ((a.shrinks_setNonce nonce bal).notReady n t ht)

lemma unshared_updateNonceBal (hs : a.SharesNoNonce) (nonce : Option UInt64) (bal : Option ℤ) :
    (a.updateCurrentNonceBalance nonce bal).1.SharesNoNonce := by
  have hst := a.shrinks_setNonce nonce bal
  have hd : (a.setNonceBalance nonce bal).1.dropReady.1.Keyed :=
    keyed_dropReady fun n t ht => ha.key_eq n t (hst.notReady n t ht)
  refine unshared_keepOld (keyed_promote hd) ?_ _
  exact unshared_promote hd ((shrinks_dropReady _).sharesNoNonce (hst.sharesNoNonce hs))
end

/-! ## Runs -/

inductive Call where
  | addTx (tx : TxTracker)
  | updateCurrentNonceBalance (nonce : Option UInt64) (balance : Option ℤ)
  | deleteTx (txHash : Hash)
  | expireTransactions (maxTime : ℤ) (now : TxTracker → ℤ)

def run (a : AddrQueue) : Call → AddrQueue
  | .addTx tx => (a.addTx tx).1
  | .updateCurrentNonceBalance nonce balance => (a.updateCurrentNonceBalance nonce balance).1
  | .deleteTx txHash => (a.deleteTx txHash).1
  | .expireTransactions maxTime now => (a.expireTransactions maxTime now).1

/-- A step under the calls allowed in a state. Between the calls the order in which the map is
visited may change. -/
inductive Step (allowed : AddrQueue → Call → Prop) : AddrQueue → AddrQueue → Prop where
  | reorder (a : AddrQueue) (notReadyTxs : GoMap UInt64 TxTracker)
      (h : a.notReadyTxs.entries.Perm notReadyTxs.entries) :
      Step allowed a { a with notReadyTxs := notReadyTxs }
  | call (a : AddrQueue) (c : Call) (h : allowed a c) : Step allowed a (a.run c)

abbrev Run (allowed : AddrQueue → Call → Prop) : AddrQueue → AddrQueue → Prop :=
  Relation.ReflTransGen (Step allowed)

def AnyCall (_ : AddrQueue) (_ : Call) : Prop := True

/-- A transaction is added only where its place is clear. -/
def ClearCall (a : AddrQueue) : Call → Prop
  | .addTx tx => a.ClearFor tx
  | _ => True

lemma shrinks_reorder {notReady : GoMap UInt64 TxTracker} (h :
    a.notReadyTxs.entries.Perm notReady.entries) :
    Shrinks a { a with notReadyTxs := notReady } where
  ready := fun _ ht => ht
  notReady := fun _ _ ht => (perm_lookup h).trans ht

lemma Step.keyed {allowed : AddrQueue → Call → Prop} {b : AddrQueue}
    (hs : Step allowed a b) (ha : a.Keyed) : b.Keyed := by
  rcases hs with ⟨notReady, h⟩ | ⟨c, h⟩
  · exact (shrinks_reorder h).keyed ha ha.ready_nonce
  cases c with
  | addTx tx => exact keyed_addTx ha tx
  | updateCurrentNonceBalance nonce bal =>
    exact keyed_updateNonceBal ha nonce bal
  | deleteTx th => exact keyed_deleteTx ha th
  | expireTransactions mt now => exact keyed_expire ha mt now

lemma Step.sharesNoNonce {b : AddrQueue} (ht : Step ClearCall a b)
    (ha : a.Keyed) (hs : a.SharesNoNonce) : b.SharesNoNonce := by
  rcases ht with ⟨notReady, h⟩ | ⟨c, h⟩
  · exact (shrinks_reorder h).sharesNoNonce hs
  cases c with
  | addTx tx => exact unshared_addTx ha hs h
  | updateCurrentNonceBalance nonce bal =>
    exact unshared_updateNonceBal ha hs nonce bal
  | deleteTx th => exact (a.shrinks_deleteTx th).sharesNoNonce hs
  | expireTransactions mt now =>
    exact (a.shrinks_expire mt now).sharesNoNonce hs

lemma Run.invariant {addr : Address} {nonce : UInt64} {bal : ℤ}
    (hn : Run ClearCall (newAddrQueue addr nonce bal) a) : a.Keyed ∧ a.SharesNoNonce := by
  induction hn with
  | refl => exact ⟨keyed_new addr nonce bal, fun r hr => by cases hr⟩
  | tail _ hs ih => exact ⟨hs.keyed ih.1, hs.sharesNoNonce ih.1 ih.2⟩

/-- In every run that adds in clear places only, no nonce is held twice; the next `addTx` keeps it
so and hides nothing exactly if its place is clear; and a failed `addTx` leaves the queue unchanged.
-/
theorem sharesNoNonce_and_addKeeps_iff {addr : Address} {nonce : UInt64} {balance : ℤ}
    {a : AddrQueue} (hrun : Run ClearCall (newAddrQueue addr nonce balance) a) : a.SharesNoNonce ∧ ∀
    tx, ((a.addTx tx).1.SharesNoNonce ∧ a.AddKeeps tx ↔ a.ClearFor tx) ∧
    ((a.addTx tx).2.dropReason ≠ none → (a.addTx tx).1 = a) := by
  obtain ⟨ha, hs⟩ := Run.invariant hrun
  refine ⟨hs, fun tx => ⟨⟨?_, ?_⟩, addTx_dropped⟩⟩
  · rintro ⟨hsh, hk⟩
    exact clearFor_of_addKeeps ha hs hsh hk
  · intro hc
    exact ⟨unshared_addTx ha hs hc, addKeeps_of_clearFor ha hc⟩

/-- A queue with nonce 0 and balance 10 after transactions of nonce 0 that cost 20 and 5. -/
def twoAtNonceZero : AddrQueue :=
  (((newAddrQueue (cropAddress []) 0 10).addTx (plainTx 1 0 1 20)).1.addTx (plainTx 2 0 1 5)).1

/-- Two transactions of nonce 0 are held at once, and a third one is accepted and takes the place of
the first without reporting it. -/
theorem twoAtNonceZero_hides : Run AnyCall (newAddrQueue (cropAddress []) 0 10) twoAtNonceZero ∧
    ¬twoAtNonceZero.SharesNoNonce ∧ (twoAtNonceZero.addTx (plainTx 3 0 1 20)).2.dropReason = none ∧
    ¬twoAtNonceZero.AddKeeps (plainTx 3 0 1 20) := by
  refine ⟨?_, ?_, by decide, ?_⟩
  · exact (Relation.ReflTransGen.single (Step.call _ (.addTx (plainTx 1 0 1 20))
      trivial)).tail (Step.call _ (.addTx (plainTx 2 0 1 5)) trivial)
  · intro hs
    exact hs (plainTx 2 0 1 5) (by decide) 0 (plainTx 1 0 1 20) (by decide) rfl
  intro hk
  rcases hk (plainTx 1 0 1 20) (.inr ⟨0, by decide⟩) with
    ⟨t, hholds, hhash, _⟩ | ⟨hrepl, _⟩
  · rw [← mem_txs_iff] at hholds
    have hn : ∀ t ∈ (twoAtNonceZero.addTx (plainTx 3 0 1 20)).1.getTransactions,
        t.hash ≠ (plainTx 1 0 1 20).hash := by
      decide
    exact hn t hholds hhash
  · have ho : (twoAtNonceZero.addTx (plainTx 3 0 1 20)).2.replacedTx ≠
        some (plainTx 1 0 1 20) := by
      decide
    exact ho hrepl

/-- A queue with nonce 0 and balance 10 after a transaction that costs 20. -/
def oneAtNonceZero : AddrQueue := ((newAddrQueue (cropAddress []) 0 10).addTx (plainTx 1 0 1 20)).1

/-- The transaction that waits for balance may be added again. -/
theorem sharesNoNonce_and_addKeeps_iff_oneAtNonceZero : Run ClearCall
    (newAddrQueue (cropAddress []) 0 10) oneAtNonceZero ∧ oneAtNonceZero.SharesNoNonce ∧
    (oneAtNonceZero.addTx (plainTx 1 0 1 20)).1.SharesNoNonce ∧ oneAtNonceZero.AddKeeps
    (plainTx 1 0 1 20) := by
  have hr : Run ClearCall (newAddrQueue (cropAddress []) 0 10) oneAtNonceZero := by
    refine Relation.ReflTransGen.single (Step.call _ (.addTx (plainTx 1 0 1 20)) ?_)
    intro _ t ht
    cases ht
  have hc : oneAtNonceZero.ClearFor (plainTx 1 0 1 20) := by
    intro _ t ht
    have hl : oneAtNonceZero.notReadyTxs.lookup 0 = some (plainTx 1 0 1 20) := by decide
    rw [← mem_unique hl ht]
    exact ⟨by decide, rfl⟩
  obtain ⟨hs, had⟩ := sharesNoNonce_and_addKeeps_iff hr
  exact ⟨hr, hs, (had _).1.mpr hc⟩

end AddrQueue

end EthdaNode.Sequencer
