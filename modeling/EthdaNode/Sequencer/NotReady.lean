import EthdaNode.Sequencer.WorkerConsistency

/-!
# Transactions that are not ready

`MoveTxToNotReady` only sets the nonce and the balance that the executor reports. Whether the
transaction leaves its place follows from these, so it can stay ready and be selected again.
-/

namespace EthdaNode.Sequencer

open Go Go.Outcome State

namespace AddrQueue

variable {a : AddrQueue} {tx t : TxTracker} (nonce : Option UInt64) (balance : Option ℤ)

lemma setNonce_current : (a.setNonceBalance nonce balance).1.currentNonce =
    nonce.getD a.currentNonce ∧
    (a.setNonceBalance nonce balance).1.currentBalance = balance.getD a.currentBalance := by
  unfold setNonceBalance
  rcases nonce with _ | nonce
  · exact ⟨rfl, rfl⟩
  simp only
  split_ifs with hn
  · exact ⟨rfl, rfl⟩
  · exact ⟨not_not.mp hn, rfl⟩

/-- The ready transaction stays if it has the nonce and can be paid; otherwise another one with
these properties takes its place. -/
lemma ready_update (hr : a.readyTx = some tx) (hk : a.Keyed) :
    let allowed (t : TxTracker) := t.nonce = nonce.getD a.currentNonce ∧
    t.cost ≤ balance.getD a.currentBalance
    (allowed tx → (a.updateCurrentNonceBalance nonce balance).1.readyTx = some tx) ∧
    ∀ t, (a.updateCurrentNonceBalance nonce balance).1.readyTx = some t → allowed t := by
  obtain ⟨hn, hb⟩ := a.setNonce_current nonce balance
  have hs := (a.setNonce_readyTx nonce balance).trans hr
  have hh := a.shrinks_setNonce nonce balance
  simp only [updateCurrentNonceBalance, keepOld_readyTx, ← hn, ← hb]
  generalize (a.setNonceBalance nonce balance).1 = b at hs hh ⊢
  rcases b.dropReady_cases with ⟨he, hy⟩ | ⟨old, ho, hd, he⟩
  · have hp : b.promote = b := if_neg (by simp [hs])
    rw [he, hp, hs]
    refine ⟨fun _ => rfl, fun t ht => ?_⟩
    cases ht
    exact hy tx hs
  cases hs.symm.trans ho
  rw [he]
  refine ⟨fun h => absurd hd (by simp [h.1, h.2]), fun t ht => ?_⟩
  rcases promote_cases { b with readyTx := none } with
    ⟨hp, -⟩ | ⟨nr, -, hlook, hpd, hp⟩
  · rw [hp] at ht
    cases ht
  rw [hp] at ht
  cases ht
  exact ⟨hk.key_eq _ _ (hh.notReady _ _ hlook), hpd⟩

end AddrQueue

namespace Worker

structure MoveCall where
  G : TxTracker → Prop
  identifies : Identifies G
  cost_eq : ∀ s t, G s → G t → s.hash = t.hash → s.cost = t.cost
  worker : Worker
  consistent : worker.Consistent G
  fromAddr : Address
  addrQueue : AddrQueue
  tx : TxTracker
  lookup : worker.pool.lookup fromAddr = some addrQueue
  ready : addrQueue.readyTx = some tx
  actualNonce : Option UInt64
  actualBalance : Option ℤ

namespace MoveCall

variable (c : MoveCall)

/-- After the call the transaction is neither ready nor in the sorted list. -/
def MakesProgress : Prop :=
  ∃ r, c.worker.moveTxToNotReady c.tx.hash c.fromAddr c.actualNonce c.actualBalance = .ok r ∧
    (∀ t, r.1.readyOf c.fromAddr = some t → t.hash ≠ c.tx.hash) ∧
    ∀ t ∈ r.1.txSortedList.sorted, t.hash ≠ c.tx.hash

lemma readyOf_moved {r : Worker × List TxTracker}
    (h : c.worker.moveTxToNotReady c.tx.hash c.fromAddr c.actualNonce c.actualBalance = .ok r) :
    r.1.readyOf c.fromAddr =
    (c.addrQueue.updateCurrentNonceBalance c.actualNonce c.actualBalance).1.readyTx := by
  have hp : (c.worker.resetWipTx c.tx.hash).pool.lookup c.fromAddr = some c.addrQueue := by
    rw [resetWipTx, apply_ite pool, ite_self, c.lookup]
  obtain ⟨s, hs, hr⟩ := ok_of_bind h
  rw [applyAddressUpdate, hp] at hs
  obtain ⟨e, -, hs⟩ := ok_of_bind hs
  cases hs
  cases hr
  rw [readyOf_insert, Function.update_self]

/-- The call makes progress exactly if the reported nonce is not that of the transaction or the
reported balance does not pay it; what is not reported is as it was. -/
theorem makesProgress_iff : c.MakesProgress ↔ c.tx.nonce ≠ c.actualNonce.getD
    c.addrQueue.currentNonce ∨ c.actualBalance.getD c.addrQueue.currentBalance < c.tx.cost := by
  have hk := c.consistent.keyed _ _ c.lookup
  have htx := c.consistent.ready ((readyOf_eq c.lookup).trans c.ready)
  obtain ⟨hs, hal⟩ := AddrQueue.ready_update c.actualNonce c.actualBalance c.ready hk
  obtain ⟨r, hr, hco, -⟩ := moveTxToNotReady_keepsTo c.identifies c.consistent c.tx.hash
    c.fromAddr c.actualNonce c.actualBalance
  rw [← c.readyOf_moved hr] at hs hal
  constructor
  · rintro ⟨r', hr', hm, -⟩
    cases hr.symm.trans hr'
    by_contra hcn
    rw [not_or, not_not, not_lt] at hcn
    exact hm c.tx (hs hcn) rfl
  intro hcn
  have hm : ∀ t, r.1.readyOf c.fromAddr = some t → t.hash ≠ c.tx.hash := by
    intro t ht hh
    have hG := (hco.ready ht).2
    obtain ⟨hnn, hcs⟩ := hal t ht
    rw [c.identifies.nonce_eq t c.tx hG htx.2 hh] at hnn
    rw [c.cost_eq t c.tx hG htx.2 hh] at hcs
    exact hcn.elim (fun hne => hne hnn) fun hlt => absurd hcs (not_le.mpr hlt)
  refine ⟨r, hr, hm, fun t ht hh => ?_⟩
  have hrd := (hco.shows.mem_iff t).mp ht
  have hf := c.identifies.from_eq t c.tx (hco.ready hrd).2 htx.2 hh
  rw [hf, htx.1] at hrd
  exact hm t hrd hh

/-- A ready transaction for which nothing is reported stays where it is. -/
theorem not_makesProgress_unchanged :
    ∃ c : MoveCall, c.actualNonce = none ∧ c.actualBalance = none ∧ ¬c.MakesProgress := by
  let tx := plainTx 1 0 1 0
  let q := { newAddrQueue tx.fromAddr 0 0 with readyTx := some tx }
  let G (t : TxTracker) := t.fromAddr = tx.fromAddr ∧ t.nonce = 0 ∧ t.cost = 0
  have hG : Identifies G := ⟨fun s t hs ht _ => hs.1.trans ht.1.symm,
    fun s t hs ht _ => hs.2.1.trans ht.2.1.symm, fun _ _ _ h => h⟩
  have hq : ∀ t, q.Holds t → t = tx := by
    rintro t (ht | ⟨n, ht⟩)
    · cases ht
      rfl
    · cases ht
  have hmr : AddrQueue.Mirrors none q.readyTx none (some tx) := .inl ⟨rfl, rfl⟩
  obtain ⟨e, -, hc⟩ := (consistent_new ⟨0, 0, 0, 0, 0, 0, 0, 0, 0⟩).put (q := q)
    (a := tx.fromAddr) hG ⟨fun t ht => hq t (.inl ht) ▸ rfl, nofun⟩ (by
      intro t ht
      rw [hq t ht]
      exact ⟨rfl, rfl, rfl, rfl⟩) hmr
  refine ⟨⟨G, hG, fun s t hs ht _ => hs.2.2.trans ht.2.2.symm, _, hc, tx.fromAddr, q, tx,
    AList.lookup_insert _, rfl, none, none⟩, rfl, rfl, ?_⟩
  rintro ⟨r, hr, hmv, -⟩
  exact hmv tx (readyOf_moved _ hr) rfl

end MoveCall

end Worker

end EthdaNode.Sequencer
