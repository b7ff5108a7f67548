import EthdaNode.Sequencer.Worker
import EthdaNode.Sequencer.AddrQueueRuns

/-!
# The sorted list of a worker

In every reachable state of a worker `txSortedList` holds exactly the ready
transactions of the queues in the pool. The functions of the queues report
which ready transaction comes and which one goes (`Mirrors`), and the worker
carries this over to the list; `Consistent.put` is the one lemma about such a
change of a queue, and every function of the worker is a sequence of them.

The list and the queues look for transactions by their hashes, so all of this
rests on the hash to identify the transaction.
-/

namespace EthdaNode.Sequencer

open Go Go.Outcome State List Function AddrQueue GoMap

/-- Trackers of one hash are trackers of one transaction, and new counters do not make a difference.
-/
structure Identifies (G : TxTracker → Prop) : Prop where
  from_eq : ∀ s t, G s → G t → s.hash = t.hash → s.fromAddr = t.fromAddr
  nonce_eq : ∀ s t, G s → G t → s.hash = t.hash → s.nonce = t.nonce
  counters : ∀ t used reserved, G t → G (t.updateZKCounters used reserved)

namespace Worker

/-- The list shows the ready transactions `R` of the addresses. -/
structure Shows (e : TxSortedList) (R : Address → Option TxTracker) : Prop where
  wf : e.WF
  mem_iff : ∀ t, t ∈ e.sorted ↔ R t.fromAddr = some t

structure Consistent (G : TxTracker → Prop) (w : Worker) : Prop where
  shows : Shows w.txSortedList w.readyOf
  keyed : ∀ a q, w.pool.lookup a = some q → q.Keyed
  held : ∀ a q, w.pool.lookup a = some q → ∀ t, q.Holds t → t.fromAddr = a ∧ G t
  pending : ∀ t ∈ w.pendingToStore, G t

variable {G : TxTracker → Prop}

lemma consistent_new (cns : BatchConstraintsCfg) : (newWorker cns).Consistent G where
  shows := by
    refine ⟨TxSortedList.wf_new, ?_⟩
    intro t
    simp [newWorker, TxSortedList.new, readyOf]
  keyed a q h := by cases h
  held a q h := by cases h
  pending t h := by cases h

variable {a : Address} {w : Worker}

lemma Consistent.ready (h : w.Consistent G) {t : TxTracker} (ht : w.readyOf a = some t) :
    t.fromAddr = a ∧ G t := by
  obtain ⟨q, hq, hr⟩ := Option.bind_eq_some_iff.mp ht
  exact h.held a q hq t (.inl hr)

variable {q : AddrQueue}

lemma readyOf_eq (h : w.pool.lookup a = some q) : w.readyOf a = q.readyTx := by
  rw [readyOf, h]
  rfl

/-! ## Changes of the list -/

variable {R : Address → Option TxTracker}

lemma shows_delete {e : TxSortedList} (h : Shows e R) (hR : ∀ t, R a = some t → t.fromAddr = a) :
    ∃ e', updateSortedList e (R a) none = .ok e' ∧ Shows e' (Function.update R a none) := by
  rcases hr : R a with _ | r
  · refine ⟨e, rfl, h.wf, ?_⟩
    rw [← hr, update_eq_self]
    exact h.mem_iff
  have hf := hR r hr
  have hm : r ∈ e.sorted := (h.mem_iff r).mpr (by rw [hf, hr])
  obtain ⟨e', hd, hw, hme, -⟩ := TxSortedList.delete_of_mem h.wf hm
  refine ⟨e', by simp only [updateSortedList, hd, ok_bind], hw, ?_⟩
  intro t
  rw [hme, h.mem_iff, update_apply]
  by_cases ht : t.fromAddr = a
  · rw [if_pos ht, ht, hr]
    constructor
    · rintro ⟨hn, he⟩
      exact absurd (Option.some.inj he).symm hn
    · intro he
      cases he
  · rw [if_neg ht]
    refine ⟨And.right, fun he => ⟨?_, he⟩⟩
    rintro rfl
    exact ht hf

lemma shows_add (hG : Identifies G) {e : TxSortedList} {R : Address → Option TxTracker}
    (h : Shows e R) (hR : ∀ a t, R a = some t → t.fromAddr = a ∧ G t) {r : TxTracker}
    (hn : R r.fromAddr = none) (hr : G r) : ∃ e', updateSortedList e none (some r) = .ok e' ∧ Shows
    e' (Function.update R r.fromAddr (some r)) := by
  have hnw : e.list.lookup r.hash = none := by
    rcases hl : e.list.lookup r.hash with _ | t
    · rfl
    have hh := h.wf.lookup_hash _ t hl
    have hme : t ∈ e.sorted := (h.wf.mem_iff t).mpr (by rw [hh, hl])
    have hd := (h.mem_iff t).mp hme
    have hf := hG.from_eq t r (hR _ t hd).2 hr hh
    rw [hf, hn] at hd
    cases hd
  obtain ⟨e', ha, hw, hm, -⟩ := TxSortedList.add_of_new h.wf hnw
  refine ⟨e', by simp only [updateSortedList, ha, ok_bind], hw, ?_⟩
  intro t
  rw [hm, h.mem_iff, update_apply]
  by_cases ht : t.fromAddr = r.fromAddr
  · rw [if_pos ht, ht, hn, Option.some.injEq]
    constructor
    · rintro (rfl | he)
      · rfl
      · cases he
    · intro he
      exact .inl he.symm
  · rw [if_neg ht]
    constructor
    · rintro (rfl | he)
      · exact absurd rfl ht
      · exact he
    · exact .inr

lemma updateSortedList_eq (e : TxSortedList) (prev new : Option TxTracker) : updateSortedList e prev
    new = (updateSortedList e prev none >>= fun e => updateSortedList e none new) := by
  rcases prev with _ | prev
  · rfl
  simp only [updateSortedList]
  cases e.delete prev with
  | _ => rfl

variable {prev : Option TxTracker}

lemma shows_update (hG : Identifies G) {e : TxSortedList} (h : Shows e R)
    (hR : ∀ a t, R a = some t → t.fromAddr = a ∧ G t) {r new : Option TxTracker}
    (hr : ∀ t, r = some t → t.fromAddr = a ∧ G t) (hmr : Mirrors (R a) r prev new) :
    ∃ e', updateSortedList e prev new = .ok e' ∧ Shows e' (Function.update R a r) := by
  rcases hmr with ⟨rfl, rfl⟩ | ⟨rfl, rfl, hn⟩
  · obtain ⟨e₁, hd, hs⟩ := shows_delete h fun t ht => (hR a t ht).1
    rw [updateSortedList_eq, hd, ok_bind]
    rcases new with _ | t
    · exact ⟨e₁, rfl, hs⟩
    obtain ⟨hf, hg⟩ := hr t rfl
    subst hf
    have hu := @shows_add G hG e₁ _ hs (by
      intro a' t' ht'
      rw [update_apply] at ht'
      split at ht'
      · cases ht'
      · exact hR a' t' ht') t (update_self _ _ _) hg
    rwa [update_idem] at hu
  · rw [update_eq_self]
    rcases hn with rfl | rfl
    · exact ⟨e, rfl, h⟩
    cases hrd : R a with
    | none => exact ⟨e, rfl, h⟩
    | some t =>
      have hm : t ∈ e.sorted := (h.mem_iff t).mpr (by rw [(hR a t hrd).1, hrd])
      refine ⟨e, ?_, h⟩
      simp only [updateSortedList, TxSortedList.add_of_mem h.wf hm, ok_bind]

lemma readyOf_insert (w : Worker) (a : Address) (q : AddrQueue) (e : TxSortedList) :
    ({ w with pool := w.pool.insert a q, txSortedList := e } : Worker).readyOf =
    Function.update w.readyOf a q.readyTx := by
  funext a'
  simp only [readyOf, lookup_insert_eq, update_apply]
  split
  · rfl
  · rfl

lemma Consistent.put (hG : Identifies G) (h : w.Consistent G) (hk : q.Keyed)
    (hh : ∀ t, q.Holds t → t.fromAddr = a ∧ G t) {new : Option TxTracker}
    (hm : Mirrors (w.readyOf a) q.readyTx prev new) :
    ∃ e, updateSortedList w.txSortedList prev new = .ok e ∧
    ({ w with pool := w.pool.insert a q, txSortedList := e } : Worker).Consistent G := by
  obtain ⟨e, hu, hs⟩ := shows_update hG h.shows
    (fun a' t ht => h.ready ht) (fun t ht => hh t (.inl ht)) hm
  rw [← readyOf_insert w a q e] at hs
  refine ⟨e, hu, hs, ?_, ?_, h.pending⟩
  · intro a' q' hq'
    rw [lookup_insert_eq] at hq'
    split at hq'
    · rw [← Option.some.inj hq']
      exact hk
    · exact h.keyed a' q' hq'
  intro a' q' hq'
  rw [lookup_insert_eq] at hq'
  split at hq'
  · next ha =>
    rw [ha, ← Option.some.inj hq']
    exact hh
  · exact h.held a' q' hq'

/-- A transaction in process stays in process. -/
def SameWip (w w' : Worker) : Prop :=
  ∀ t, w.wipTx = some t → ∃ t', w'.wipTx = some t' ∧ t'.Same t ∧ t'.fromAddr = t.fromAddr

variable {w' : Worker}

lemma SameWip.of_eq (h : w'.wipTx = w.wipTx) : SameWip w w' :=
  fun t ht => ⟨t, h.trans ht, ⟨rfl, rfl⟩, rfl⟩

lemma SameWip.refl (w : Worker) : SameWip w w := .of_eq rfl

lemma SameWip.trans {w'' : Worker} (h : SameWip w w') (h' : SameWip w' w'') : SameWip w w'' := by
  intro t ht
  obtain ⟨t', ht', ha, hm⟩ := h t ht
  obtain ⟨t'', ht'', hs, hf⟩ := h' t' ht'
  exact ⟨t'', ht'', ⟨hs.1.trans ha.1, hs.2.trans ha.2⟩, hf.trans hm⟩

/-- The call returns a consistent worker with the same transaction in process. -/
def KeepsTo (G : TxTracker → Prop) {α : Type} (w : Worker)
    (x : Outcome WorkerError α) (worker : α → Worker) : Prop :=
  ∃ r, x = .ok r ∧ (worker r).Consistent G ∧ SameWip w (worker r)

variable {α : Type} {x : Outcome WorkerError α} {wk : α → Worker}

lemma KeepsTo.trans (hw : SameWip w w') (h : KeepsTo G w' x wk) : KeepsTo G w x wk := by
  obtain ⟨r, hx, hc, hi⟩ := h
  exact ⟨r, hx, hc, hw.trans hi⟩

lemma KeepsTo.bind {β : Type} {f : α → Outcome WorkerError β} {worker' : β → Worker}
    (h : KeepsTo G w x wk) (hf : ∀ r, (wk r).Consistent G → KeepsTo G (wk r) (f r) worker') :
    KeepsTo G w (x >>= f) worker' := by
  obtain ⟨r, hx, hc, hw⟩ := h
  rw [hx, ok_bind]
  exact (hf r hc).trans hw

lemma KeepsTo.foldlM {α β : Type} {f : α → β → Outcome WorkerError α} {wk : α → Worker}
    {xs : List β} (hf : ∀ s x, (wk s).Consistent G → KeepsTo G (wk s) (f s x) wk) {s : α}
    (hs : (wk s).Consistent G) : KeepsTo G (wk s) (xs.foldlM f s) wk := by
  refine foldlM_invariant ?_ ⟨hs, SameWip.refl _⟩
  intro s' x _ ⟨hs', hw⟩
  exact (hf s' x hs').trans hw

lemma enqueue_eq (w : Worker) (addr : AddrQueue) (tx : TxTracker) :
    w.enqueue addr tx = (updateSortedList w.txSortedList (addr.addTx tx).2.prevReadyTx
    (addr.addTx tx).2.newReadyTx >>= fun e =>
    .ok ({ w with
    pool := w.pool.insert tx.fromAddr (addr.addTx tx).1
    txSortedList := e },
    ⟨(addr.addTx tx).2.replacedTx, (addr.addTx tx).2.dropReason⟩)) := by
  rcases addr.addTx_cases tx with
    ⟨_, heq⟩ | ⟨_, _, _, heq⟩ | ⟨_, _, _, heq⟩ | ⟨_, _, heq⟩
  · simp only [enqueue, heq, AddTxResult.dropped]
    rfl
  · simp only [enqueue, heq]
  · simp only [enqueue, heq]
  · simp only [enqueue, heq]

variable {tx : TxTracker}

lemma enqueue_eq_ok {addr : AddrQueue} {r : AddResult} (h : w.enqueue addr tx = .ok (w', r)) :
    w'.pool = w.pool.insert tx.fromAddr (addr.addTx tx).1 ∧
    r = ⟨(addr.addTx tx).2.replacedTx, (addr.addTx tx).2.dropReason⟩ := by
  rw [enqueue_eq, bind_ok_iff] at h
  obtain ⟨e, _, h⟩ := h
  cases h
  exact ⟨rfl, rfl⟩

lemma held_addTx (hh : ∀ t, q.Holds t → t.fromAddr = a ∧ G t) (hf : tx.fromAddr = a) (hx : G tx) :
    ∀ t, (q.addTx tx).1.Holds t → t.fromAddr = a ∧ G t := by
  intro t ht
  rcases holds_addTx ht with rfl | ht
  · exact ⟨hf, hx⟩
  · exact hh t ht

section
variable (hG : Identifies G)
include hG

/-- The end of `addTxTracker`, for a queue that takes the place of one with the
same ready transaction. -/
lemma enqueue_spec (h : w.Consistent G) (hk : q.Keyed)
    (hh : ∀ t, q.Holds t → t.fromAddr = tx.fromAddr ∧ G t)
    (hr : w.readyOf tx.fromAddr = q.readyTx) (ht : G tx) :
    ∃ e, w.enqueue q tx = .ok ({ w with
    pool := w.pool.insert tx.fromAddr (q.addTx tx).1
    txSortedList := e },
    ⟨(q.addTx tx).2.replacedTx, (q.addTx tx).2.dropReason⟩) ∧
    ({ w with
    pool := w.pool.insert tx.fromAddr (q.addTx tx).1
    txSortedList := e } : Worker).Consistent G := by
  have hm := q.addTx_mirrors tx
  rw [← hr] at hm
  obtain ⟨e, hu, hc⟩ := h.put hG (keyed_addTx hk tx) (held_addTx hh rfl ht) hm
  exact ⟨e, by rw [enqueue_eq, hu, ok_bind], hc⟩

lemma enqueue_keepsTo (h : w.Consistent G) (hk : q.Keyed)
    (hh : ∀ t, q.Holds t → t.fromAddr = tx.fromAddr ∧ G t) (hr : w.readyOf tx.fromAddr = q.readyTx)
    (ht : G tx) : KeepsTo G w (w.enqueue q tx) Prod.fst := by
  obtain ⟨e, he, hc⟩ := enqueue_spec hG h hk hh hr ht
  exact ⟨_, he, hc, SameWip.of_eq rfl⟩

lemma trackerStart_keepsTo (ip : String → Bool) (h : w.Consistent G) (ht : G tx) :
    KeepsTo G w (w.addTxTrackerStart ip tx) Prod.fst := by
  unfold addTxTrackerStart
  cases w.checkTx ip tx with
  | some reason => exact ⟨_, rfl, h, SameWip.refl w⟩
  | none =>
    cases hl : w.pool.lookup tx.fromAddr with
    | some q =>
      refine (enqueue_keepsTo hG h (h.keyed _ q hl) (h.held _ q hl)
        (readyOf_eq hl) ht).bind fun r hr => ?_
      exact ⟨_, rfl, hr, SameWip.refl _⟩
    | none => exact ⟨_, rfl, h, SameWip.refl w⟩

lemma trackerResume_keepsTo (h : w.Consistent G) (hx : G tx) (hn : w.readyOf tx.fromAddr = none)
    (nonce : UInt64) (bal : ℤ) : KeepsTo G w (w.addTxTrackerResume tx nonce bal) Prod.fst :=
  enqueue_keepsTo hG h (keyed_new _ nonce bal)
    (fun t ht => absurd ht (not_holds_new _ nonce bal t)) hn hx
end

variable {ip : String → Bool}

/-- The first part has no result only without a queue for the sender, and then it changes nothing.
-/
lemma trackerStart_eq_none (h : w.addTxTrackerStart ip tx = .ok (w', none)) :
    w' = w ∧ w.checkTx ip tx = none ∧ w.pool.lookup tx.fromAddr = none := by
  unfold addTxTrackerStart at h
  cases hc : w.checkTx ip tx with
  | some reason =>
    rw [hc] at h
    cases h
  | none =>
    rw [hc] at h
    cases hl : w.pool.lookup tx.fromAddr with
    | some q =>
      simp only [hl, bind_ok_iff] at h
      obtain ⟨r, _, h⟩ := h
      cases h
    | none =>
      simp only [hl, ok.injEq, Prod.mk.injEq, and_true] at h
      exact ⟨h.symm, rfl, rfl⟩

/-- The first part of an `AddTxTracker` has rejected the transaction or added it to its sender's
queue. -/
lemma trackerStart_cases {r : AddResult} (h : w.addTxTrackerStart ip tx = .ok (w', some r)) : (w' =
    w ∧ ∃ reason, r = ⟨none, some reason⟩) ∨ (w.checkTx ip tx = none ∧ ∃ q,
    w.pool.lookup tx.fromAddr = some q ∧ w.enqueue q tx = .ok (w', r)) := by
  unfold addTxTrackerStart at h
  cases hc : w.checkTx ip tx with
  | some reason =>
    rw [hc] at h
    obtain ⟨rfl, hr⟩ := Prod.mk.inj (ok.inj h)
    exact .inl ⟨rfl, reason, (Option.some.inj hr).symm⟩
  | none =>
    rw [hc] at h
    cases hl : w.pool.lookup tx.fromAddr with
    | some q =>
      simp only [hl, bind_ok_iff] at h
      obtain ⟨s, he, h⟩ := h
      obtain ⟨rfl, hr⟩ := Prod.mk.inj (ok.inj h)
      rw [← Option.some.inj hr]
      exact .inr ⟨rfl, q, rfl, he⟩
    | none =>
      simp only [hl] at h
      cases h

section
variable (hG : Identifies G)
include hG

lemma addTxTracker_keepsTo (ip : String → Bool) (h : w.Consistent G) (state : StateInterface)
    (ht : G tx) : KeepsTo G w (w.addTxTracker ip state tx) Prod.fst := by
  obtain ⟨⟨w', r⟩, hs, hc, hw⟩ := trackerStart_keepsTo hG ip h ht
  rw [addTxTracker, hs, ok_bind]
  cases r with
  | some r => exact ⟨_, rfl, hc, hw⟩
  | none =>
    obtain ⟨rfl, _, hn⟩ := trackerStart_eq_none hs
    cases state.nonceBalance tx.fromAddr with
    | error reason => exact ⟨_, rfl, hc, hw⟩
    | ok ans =>
      exact trackerResume_keepsTo hG h ht (by rw [readyOf, hn]; rfl) ans.1 ans.2

/-! ## Executed transactions -/

lemma addrUpdate_keepsTo (h : w.Consistent G) (addr : Address) (nonce : Option UInt64)
    (bal : Option ℤ) : KeepsTo G w (w.applyAddressUpdate addr nonce bal) Prod.fst := by
  unfold applyAddressUpdate
  rcases hl : w.pool.lookup addr with _ | q
  · exact ⟨_, rfl, h, SameWip.refl w⟩
  have hm := q.updateNonceBal_mirrors nonce bal
  rw [← readyOf_eq hl] at hm
  obtain ⟨e, hu, hc⟩ := h.put hG (keyed_updateNonceBal (h.keyed _ q hl) nonce bal)
    (fun t ht => h.held _ q hl t (holds_updateNonceBal ht)) hm
  simp only [hu, ok_bind]
  exact ⟨_, rfl, hc, SameWip.of_eq rfl⟩

lemma updateTouchedFrom_keepsTo (h : w.Consistent G) (addr : Address)
    (touchedFrom : Option InfoReadWrite) :
    KeepsTo G w (w.updateTouchedFrom addr touchedFrom) Prod.fst := by
  cases touchedFrom with
  | none => exact ⟨_, rfl, h, SameWip.refl w⟩
  | some touchedFrom =>
    refine (addrUpdate_keepsTo hG h addr touchedFrom.nonce touchedFrom.balance).bind fun r hr => ?_
    exact ⟨_, rfl, hr, SameWip.refl _⟩

lemma updateTouched_keepsTo (addr : Address) (s : Worker × List TxTracker)
    (touched : Sigma fun _ : Address => InfoReadWrite) (h : s.1.Consistent G) :
    KeepsTo G s.1 (updateTouched addr s touched) Prod.fst := by
  unfold updateTouched
  split
  · refine (addrUpdate_keepsTo hG h touched.1 none touched.2.balance).bind fun r hr => ?_
    exact ⟨_, rfl, hr, SameWip.refl _⟩
  · exact ⟨_, rfl, h, SameWip.refl _⟩

lemma updateAfterTx_keepsTo (h : w.Consistent G) (addr : Address)
    (touchedAddresses : GoMap Address InfoReadWrite) :
    KeepsTo G w (w.updateAfterSingleSuccessfulTxExecution addr touchedAddresses) Prod.fst :=
  (updateTouchedFrom_keepsTo hG h addr _).bind fun _ hs =>
    KeepsTo.foldlM (updateTouched_keepsTo hG addr) hs
end

lemma consistent_resetWipTx (h : w.Consistent G) (th : Hash) : (w.resetWipTx th).Consistent G := by
  unfold resetWipTx
  split
  · exact ⟨h.shows, h.keyed, h.held, h.pending⟩
  · exact h

lemma moveTxToNotReady_keepsTo (hG : Identifies G) (h : w.Consistent G) (th : Hash)
    (addr : Address) (nonce : Option UInt64) (bal : Option ℤ) :
    KeepsTo G (w.resetWipTx th) (w.moveTxToNotReady th addr nonce bal) Prod.fst := by
  refine (addrUpdate_keepsTo hG (consistent_resetWipTx h th) addr nonce bal).bind fun r hr => ?_
  exact ⟨_, rfl, hr, SameWip.refl _⟩

lemma deleteQueuedTx_keepsTo (hG : Identifies G) (h : w.Consistent G) (th : Hash) (addr : Address) :
    ∃ r, w.deleteQueuedTx th addr = .ok r ∧ r.1.Consistent G ∧ SameWip w r.1 ∧
    ∀ t, r.2 = some t → G t := by
  unfold deleteQueuedTx
  rcases hl : w.pool.lookup addr with _ | q
  · exact ⟨_, rfl, h, SameWip.refl w, fun t ht => by cases ht⟩
  have hm := q.deleteTx_mirrors th
  rw [← readyOf_eq hl] at hm
  obtain ⟨e, hu, hc⟩ := h.put hG (keyed_deleteTx (h.keyed _ q hl) th)
    (fun t ht => h.held _ q hl t ((q.shrinks_deleteTx th).holds ht)) hm
  simp only [hu, ok_bind]
  refine ⟨_, rfl, hc, SameWip.of_eq rfl, ?_⟩
  intro t ht
  exact (h.held _ q hl t (holds_of_deleteTx ht).1).2

lemma deleteTx_keepsTo (hG : Identifies G) (h : w.Consistent G) (th : Hash) (addr : Address) :
    KeepsTo G (w.resetWipTx th) (w.deleteTx th addr) id := by
  obtain ⟨r, hd, hc, hw, _⟩ := deleteQueuedTx_keepsTo hG (consistent_resetWipTx h th) th addr
  exact ⟨r.1, by rw [deleteTx, hd, ok_bind], hc, hw⟩

/-- A change of the forced and pending hashes of a queue. -/
structure KeepsTxs (f : AddrQueue → AddrQueue) : Prop where
  readyTx : ∀ q, (f q).readyTx = q.readyTx
  notReadyTxs : ∀ q, (f q).notReadyTxs = q.notReadyTxs
  currentNonce : ∀ q, (f q).currentNonce = q.currentNonce

lemma cons_modifyQueue (hG : Identifies G) (h : w.Consistent G) (addr : Address)
    {f : AddrQueue → AddrQueue} (hf : KeepsTxs f) :
    (w.modifyQueue addr f).Consistent G ∧ SameWip w (w.modifyQueue addr f) := by
  unfold modifyQueue
  rcases hl : w.pool.lookup addr with _ | q
  · exact ⟨h, SameWip.refl w⟩
  have hs : Shrinks q (f q) :=
    ⟨fun t ht => by rwa [hf.readyTx] at ht, fun n t ht => by rwa [hf.notReadyTxs] at ht⟩
  have hk : (f q).Keyed := by
    refine hs.keyed (h.keyed _ q hl) fun t ht => ?_
    rw [hf.currentNonce, (h.keyed _ q hl).ready_nonce t (hs.ready t ht)]
  have hm : Mirrors (w.readyOf addr) (f q).readyTx none none :=
    .inr ⟨rfl, by rw [hf.readyTx, readyOf_eq hl], .inl rfl⟩
  obtain ⟨e, hu, hc⟩ := h.put hG hk (fun t ht => h.held _ q hl t (hs.holds ht)) hm
  have he : e = w.txSortedList := (ok.inj hu).symm
  subst he
  exact ⟨hc, SameWip.of_eq rfl⟩

variable (th : Hash)

lemma keepsTxs_addForcedTx : KeepsTxs fun q => q.addForcedTx th :=
  ⟨fun _ => rfl, fun _ => rfl, fun _ => rfl⟩

lemma keepsTxs_deleteForcedTx : KeepsTxs fun q => q.deleteForcedTx th :=
  ⟨fun _ => rfl, fun _ => rfl, fun _ => rfl⟩

lemma keepsTxs_addPendingTx : KeepsTxs fun q => q.addPendingTxToStore th :=
  ⟨fun _ => rfl, fun _ => rfl, fun _ => rfl⟩

lemma keepsTxs_deletePending : KeepsTxs fun q => q.deletePendingTxToStore th :=
  ⟨fun _ => rfl, fun _ => rfl, fun _ => rfl⟩

def ChangesCounters (f : TxTracker → TxTracker) : Prop :=
  ∀ t, f t = t ∨ ∃ used reserved, f t = t.updateZKCounters used reserved

lemma changes_counters (w : Worker) (th : Hash) (addr : Address) (used reserved : ZKCounters) :
    ChangesCounters (w.countersWrite th addr used reserved) := by
  intro t
  unfold countersWrite
  split
  · split
    · exact .inr ⟨used, reserved, rfl⟩
    · exact .inl rfl
  · exact .inl rfl

variable {f : TxTracker → TxTracker}

lemma ChangesCounters.field (hf : ChangesCounters f) (field : TxTracker → α)
    (hl : ∀ t used reserved, field (t.updateZKCounters used reserved) = field t)
    (t : TxTracker) : field (f t) = field t := by
  rcases hf t with he | ⟨used, reserved, he⟩
  · rw [he]
  · rw [he, hl]

lemma ChangesCounters.genuine (hf : ChangesCounters f) (hG : Identifies G) {t : TxTracker}
    (ht : G t) : G (f t) := by
  rcases hf t with he | ⟨used, reserved, he⟩
  · rwa [he]
  · rw [he]
    exact hG.counters t used reserved ht

lemma lookup_mapTrackers (h : (w.mapTrackers f).pool.lookup a = some q) :
    ∃ q₀, w.pool.lookup a = some q₀ ∧ q.currentNonce = q₀.currentNonce ∧
    q.readyTx = q₀.readyTx.map f ∧ q.notReadyTxs = q₀.notReadyTxs.mapValues f := by
  rw [mapTrackers, lookup_mapValues, Option.map_eq_some_iff] at h
  obtain ⟨q₀, hq₀, rfl⟩ := h
  exact ⟨q₀, hq₀, rfl, rfl, rfl⟩

lemma readyOf_mapTrackers (w : Worker) (f : TxTracker → TxTracker) (a : Address) :
    (w.mapTrackers f).readyOf a = (w.readyOf a).map f := by
  rw [readyOf, readyOf, mapTrackers, lookup_mapValues]
  cases w.pool.lookup a with
  | _ => rfl

lemma consistent_mapTrackers (hG : Identifies G) (h : w.Consistent G) (hf : ChangesCounters f) :
    (w.mapTrackers f).Consistent G where
  shows := by
    refine ⟨h.shows.wf.map (hf.field TxTracker.hash fun _ _ _ => rfl)
      (hf.field TxTracker.gasPrice fun _ _ _ => rfl), ?_⟩
    intro t
    have hfr := hf.field TxTracker.fromAddr fun _ _ _ => rfl
    rw [readyOf_mapTrackers, Option.map_eq_some_iff, mapTrackers, mem_map]
    constructor
    · rintro ⟨s, hs, rfl⟩
      exact ⟨s, by rw [hfr, (h.shows.mem_iff s).mp hs], rfl⟩
    rintro ⟨s, hs, rfl⟩
    rw [hfr] at hs
    exact ⟨s, (h.shows.mem_iff s).mpr hs, rfl⟩
  keyed a q hq := by
    obtain ⟨q₀, hq₀, hnn, hr, hn⟩ := lookup_mapTrackers hq
    have hl := hf.field TxTracker.nonce fun _ _ _ => rfl
    refine ⟨?_, ?_⟩
    · intro t ht
      obtain ⟨s, hs, rfl⟩ := Option.map_eq_some_iff.mp (hr.symm.trans ht)
      rw [hl, hnn, (h.keyed a q₀ hq₀).ready_nonce s hs]
    intro n t ht
    rw [hn, lookup_mapValues, Option.map_eq_some_iff] at ht
    obtain ⟨s, hs, rfl⟩ := ht
    rw [hl, (h.keyed a q₀ hq₀).key_eq n s hs]
  held a q hq t ht := by
    obtain ⟨q₀, hq₀, _, hr, hn⟩ := lookup_mapTrackers hq
    have hh : ∃ s, q₀.Holds s ∧ f s = t := by
      rcases ht with ht | ⟨n, ht⟩
      · obtain ⟨s, hs, he⟩ := Option.map_eq_some_iff.mp (hr.symm.trans ht)
        exact ⟨s, .inl hs, he⟩
      rw [hn, lookup_mapValues, Option.map_eq_some_iff] at ht
      obtain ⟨s, hs, he⟩ := ht
      exact ⟨s, .inr ⟨n, hs⟩, he⟩
    obtain ⟨s, hs, rfl⟩ := hh
    obtain ⟨hfr, hg⟩ := h.held a q₀ hq₀ s hs
    exact ⟨(hf.field TxTracker.fromAddr (fun _ _ _ => rfl) s).trans hfr, hf.genuine hG hg⟩
  pending t ht := by
    obtain ⟨s, hs, rfl⟩ := mem_map.mp ht
    exact hf.genuine hG (h.pending s hs)

lemma sameWip_mapTrackers (w : Worker) (hf : ChangesCounters f) : SameWip w (w.mapTrackers f) := by
  intro t ht
  refine ⟨f t, by rw [mapTrackers, ht]; rfl, ⟨?_, ?_⟩, ?_⟩
  · exact hf.field TxTracker.hash (fun _ _ _ => rfl) t
  · exact hf.field TxTracker.nonce (fun _ _ _ => rfl) t
  · exact hf.field TxTracker.fromAddr (fun _ _ _ => rfl) t

/-! ## Transactions that are not stored yet -/

lemma consistent_appendPending (h : w.Consistent G) {deletedTx : Option TxTracker}
    (hd : ∀ t, deletedTx = some t → G t) :
    (w.appendPending deletedTx).Consistent G where
  shows := h.shows
  keyed := h.keyed
  held := h.held
  pending t ht := by
    rcases mem_append.mp ht with ht | ht
    · exact h.pending t ht
    · exact hd t (Option.mem_toList.mp ht)

lemma moveTxPendingToStore_keepsTo (hG : Identifies G) (h : w.Consistent G) (th : Hash)
    (addr : Address) : KeepsTo G w (w.moveTxPendingToStore th addr) id := by
  obtain ⟨r, hd, hc, hi, hl⟩ := deleteQueuedTx_keepsTo hG h th addr
  obtain ⟨hm, hw⟩ := cons_modifyQueue hG (consistent_appendPending hc hl) addr
    (keepsTxs_addPendingTx th)
  refine ⟨(r.1.appendPending r.2).modifyQueue addr fun q => q.addPendingTxToStore th,
    by rw [moveTxPendingToStore, hd, ok_bind], hm, ?_⟩
  exact hi.trans hw

lemma deletePendingAt_subset {th : Hash} {s s' : PendingSlice} {i : ℕ}
    (h : deletePendingAt th s i = .ok s') : s'.array ⊆ s.array := by
  rw [deletePendingAt, bind_ok_iff] at h
  obtain ⟨tts, _, h⟩ := h
  split at h
  · rw [bind_ok_iff] at h
    obtain ⟨rest, hr, h⟩ := h
    obtain ⟨_, hr⟩ := slice_ok_iff.mp hr
    rw [← ok.inj h, ← hr]
    intro t ht
    simp only [mem_append] at ht
    rcases ht with (ht | ht) | ht
    · exact mem_of_mem_take ht
    · exact mem_of_mem_take (mem_of_mem_drop ht)
    · exact mem_of_mem_drop ht
  · rw [← ok.inj h]
    exact Subset.refl _

lemma consistent_deletePendingTx (hG : Identifies G) (h : w.Consistent G) {th : Hash}
    {addr : Address} (hd : w.deleteTxPendingToStore th addr = .ok w') :
    w'.Consistent G ∧ SameWip w w' := by
  rw [deleteTxPendingToStore, bind_ok_iff] at hd
  obtain ⟨s, hl, hd⟩ := hd
  have hb : s.array ⊆ w.pendingToStore := foldlM_ok_invariant (P := fun s => s.array ⊆
    w.pendingToStore) (fun s i s' hs hst => Subset.trans (deletePendingAt_subset hst) hs) hl
    (Subset.refl _)
  have he : ({ w with pendingToStore := s.array.take s.len } : Worker).Consistent G := by
    refine ⟨h.shows, h.keyed, h.held, ?_⟩
    intro t ht
    exact h.pending t (hb (mem_of_mem_take ht))
  obtain ⟨hm, hw⟩ := cons_modifyQueue hG he addr (keepsTxs_deletePending th)
  rw [← ok.inj hd]
  exact ⟨hm, hw⟩

lemma readyOf_erase (w : Worker) (a : Address) (e : TxSortedList) :
    ({ w with pool := w.pool.erase a, txSortedList := e } : Worker).readyOf =
    Function.update w.readyOf a none := by
  funext a'
  simp only [readyOf, lookup_erase_eq, update_apply]
  split
  · rfl
  · rfl

/-- The variables of `RestoreTxsPendingToStore`: a consistent worker and genuine transactions to add
again. -/
def Restorable (G : TxTracker → Prop) (s : Worker × List TxTracker) : Prop :=
  s.1.Consistent G ∧ ∀ t ∈ s.2, G t

variable {s : Worker × List TxTracker}

lemma removeQueue_spec (h : Restorable G s) (addr : Address) :
    ∃ s', removeQueue s addr = .ok s' ∧ Restorable G s' := by
  obtain ⟨hc, hg⟩ := h
  unfold removeQueue
  rcases hl : s.1.pool.lookup addr with _ | q
  · exact ⟨s, rfl, hc, hg⟩
  obtain ⟨e, hd, hs⟩ := shows_delete hc.shows fun t ht => (hc.ready ht).1
  rw [readyOf_eq hl] at hd
  rw [← readyOf_erase s.1 addr e] at hs
  simp only [hd, ok_bind]
  refine ⟨_, rfl, ⟨hs, ?_, ?_, hc.pending⟩, ?_⟩
  · intro a q' hq'
    rw [lookup_erase_eq] at hq'
    split at hq'
    · cases hq'
    · exact hc.keyed a q' hq'
  · intro a q' hq'
    rw [lookup_erase_eq] at hq'
    split at hq'
    · cases hq'
    · exact hc.held a q' hq'
  intro t ht
  rcases mem_append.mp ht with ht | ht
  · exact hg t ht
  · rw [mem_txs_iff] at ht
    exact (hc.held _ q hl t ht).2

lemma restoreTx_spec (hG : Identifies G) (ip : String → Bool) (state : ℕ → StateInterface)
    {s : RestoreState} (h : s.worker.Consistent G) {restored : TxTracker × ℕ} (hr : G restored.1) :
    ∃ s', restoreTx ip state s restored = .ok s' ∧ s'.worker.Consistent G := by
  obtain ⟨r, ha, hc, _⟩ := addTxTracker_keepsTo hG ip h (state restored.2) hr
  refine ⟨_, by rw [restoreTx, ha, ok_bind], ?_⟩
  exact hc

lemma restoreTxs_spec (hG : Identifies G) (ip : String → Bool)
    (h : w.Consistent G) (visit : RangeOrder) (state : ℕ → StateInterface) :
    ∃ r, w.restoreTxsPendingToStore ip visit state = .ok r ∧ r.1.Consistent G := by
  have hr : ∃ removed, (visit.order
      (w.pendingToStore.map TxTracker.fromAddr).dedup).foldlM removeQueue
      ({ w with reorgedTxs := w.pendingToStore }, w.pendingToStore) = .ok removed ∧
      Restorable G removed :=
    foldlM_invariant (fun s addr _ hs => removeQueue_spec hs addr)
      ⟨⟨h.shows, h.keyed, h.held, h.pending⟩, h.pending⟩
  obtain ⟨removed, hrm, hc, hg⟩ := hr
  have hl : ({ removed.1 with
      pendingToStore := [], wipTx := none } : Worker).Consistent G :=
    ⟨hc.shows, hc.keyed, hc.held, fun t ht => by cases ht⟩
  have hrs : ∃ s, removed.2.zipIdx.foldlM (restoreTx ip state)
      ⟨{ removed.1 with pendingToStore := [], wipTx := none }, [], []⟩ = .ok s ∧
      s.worker.Consistent G :=
    foldlM_invariant (P := fun s : RestoreState => s.worker.Consistent G)
      (fun s restored hm hs => restoreTx_spec hG ip state hs (hg _ (fst_mem_of_mem_zipIdx hm))) hl
  obtain ⟨s, he, hs⟩ := hrs
  refine ⟨(s.worker, s.droppedTxs, s.replacedTxs), ?_, hs⟩
  simp only [restoreTxsPendingToStore, hrm, ok_bind, he]

lemma nextReorgedTx_eq_some {rt : List TxTracker} (h : (w.nextReorgedTx rt).1 = some tx) :
    tx ∈ rt ∧ ∃ t, w.readyOf tx.fromAddr = some t ∧ t.hash = tx.hash := by
  induction rt with
  | nil => cases h
  | cons reorged rest ih =>
    rw [nextReorgedTx] at h
    split at h
    · next hr =>
      cases h
      obtain ⟨t, ht, hh⟩ := (Option.any_eq_true _ _).mp hr
      exact ⟨mem_cons_self, t, ht, by simpa using hh⟩
    · obtain ⟨hm, hr⟩ := ih h
      exact ⟨mem_cons_of_mem _ hm, hr⟩

variable {high : ZKCounters} {schedule : List ℕ} {remaining : BatchResources}

variable {r : Except WorkerError TxTracker}

/-- What `GetBestFittingTx` does: it returns a transaction of a reorg, fails, or
returns a transaction of the sorted list that fits and is in process then. -/
lemma bestFit_cases {n : ℕ} (h : w.getBestFittingTx remaining high n schedule = .ok (w', r)) :
    ∃ wip reorged, w' = { w with wipTx := wip, reorgedTxs := reorged } ∧
    ((∃ tx, r = .ok tx ∧ wip = none ∧ (w.nextReorgedTx w.reorgedTxs).1 = some tx) ∨
    (∃ reason, r = .error reason ∧ wip = none) ∨
    ∃ tx, r = .ok tx ∧ wip = some tx ∧ tx ∈ w.txSortedList.sorted ∧
    fitsIn remaining high tx = true) := by
  unfold getBestFittingTx at h
  simp only at h
  split at h
  · next tx ht =>
    cases h
    exact ⟨none, _, rfl, .inl ⟨tx, rfl, rfl, ht⟩⟩
  split at h
  · cases h
    exact ⟨none, _, rfl, .inr (.inl ⟨_, rfl, rfl⟩)⟩
  split at h
  · split at h
    · next fa hn =>
      rw [bind_ok_iff] at h
      obtain ⟨tx, hi, h⟩ := h
      cases h
      have hg : w.txSortedList.sorted[fa]? = some tx := index_ok_iff.mp hi
      have hf := (ParallelSearch.run_found hn).2
      rw [fitsAt, hg] at hf
      exact ⟨some tx, _, rfl, .inr (.inr ⟨tx, rfl, rfl, mem_of_getElem? hg, hf⟩)⟩
    · cases h
      exact ⟨none, _, rfl, .inr (.inl ⟨_, rfl, rfl⟩)⟩
  · cases h

lemma consistent_bestFit (hw : w.Consistent G) {n : ℕ}
    (h : w.getBestFittingTx remaining high n schedule = .ok (w', r)) : w'.Consistent G := by
  obtain ⟨wip, reorged, rfl, _⟩ := bestFit_cases h
  exact ⟨hw.shows, hw.keyed, hw.held, hw.pending⟩

lemma expireQueue_keepsTo (hG : Identifies G) (maxT : ℤ) (now : TxTracker → ℤ)
    (s : Worker × List TxTracker) (addr : Address) (h : s.1.Consistent G) :
    KeepsTo G s.1 (expireQueue maxT now s addr) Prod.fst := by
  unfold expireQueue
  rcases hl : s.1.pool.lookup addr with _ | q
  · exact ⟨_, rfl, h, SameWip.refl _⟩
  have hm := q.expire_mirrors maxT now
  rw [← readyOf_eq hl] at hm
  obtain ⟨e, hu, hc⟩ := h.put hG (keyed_expire (h.keyed _ q hl) maxT now)
    (fun t ht => h.held _ q hl t ((q.shrinks_expire maxT now).holds ht)) hm
  simp only [hu, ok_bind]
  exact ⟨_, rfl, hc, SameWip.of_eq rfl⟩

lemma expire_keepsTo (hG : Identifies G) (h : w.Consistent G) (maxT : ℤ) (now : TxTracker → ℤ) :
    KeepsTo G w (w.expireTransactions maxT now) Prod.fst :=
  @KeepsTo.foldlM G _ _ _ _ _ (expireQueue_keepsTo hG maxT now) (w, []) h

variable {now : TxTracker → ℤ}

/-- In `ExpireTransactions` the queues only get smaller, and the expired transactions come from
them. -/
lemma expireQueue_expired {maxT : ℤ} {s' : Worker × List TxTracker} {addr : Address} (hq : ∀ a q t,
    s.1.pool.lookup a = some q → q.Holds t → ∃ q₀, w.pool.lookup a = some q₀ ∧ q₀.Holds t)
    (he : ∀ t ∈ s.2, t.expired maxT (now t) = true ∧ ∃ a q, w.pool.lookup a = some q ∧ q.Holds t)
    (h : expireQueue maxT now s addr = .ok s') : (∀ a q t, s'.1.pool.lookup a = some q → q.Holds t →
    ∃ q₀, w.pool.lookup a = some q₀ ∧ q₀.Holds t) ∧ ∀ t ∈ s'.2, t.expired maxT (now t) = true ∧
    ∃ a q, w.pool.lookup a = some q ∧ q.Holds t := by
  unfold expireQueue at h
  rcases hl : s.1.pool.lookup addr with _ | q
  · rw [hl] at h
    exact ok.inj h ▸ ⟨hq, he⟩
  simp only [hl, bind_ok_iff] at h
  obtain ⟨e, _, h⟩ := h
  rw [← ok.inj h]
  refine ⟨?_, ?_⟩
  · intro a q' t hq' ht
    rw [lookup_insert_eq] at hq'
    split at hq'
    · next ha =>
      subst ha
      rw [← Option.some.inj hq'] at ht
      exact hq _ q t hl ((q.shrinks_expire maxT now).holds ht)
    · exact hq a q' t hq' ht
  · intro t ht
    rcases mem_append.mp ht with ht | ht
    · exact he t ht
    obtain ⟨hh, ho⟩ := holds_of_expired ht
    obtain ⟨q₀, hq₀, hholds₀⟩ := hq _ q t hl hh
    exact ⟨ho, _, q₀, hq₀, hholds₀⟩

lemma expire_expired {maxT : ℤ} {txs : List TxTracker}
    (h : w.expireTransactions maxT now = .ok (w', txs)) :
    ∀ t ∈ txs, t.expired maxT (now t) = true ∧ ∃ a q, w.pool.lookup a = some q ∧ q.Holds t := by
  have hl := foldlM_ok_invariant (P := fun s : Worker × List TxTracker =>
      (∀ a q t, s.1.pool.lookup a = some q → q.Holds t →
        ∃ q₀, w.pool.lookup a = some q₀ ∧ q₀.Holds t) ∧
      ∀ t ∈ s.2, t.expired maxT (now t) = true ∧ ∃ a q, w.pool.lookup a = some q ∧ q.Holds t)
    (fun s addr s' hs hst => expireQueue_expired hs.1 hs.2 hst) h
    ⟨fun a q t hq ht => ⟨q, hq, ht⟩, fun t ht => by cases ht⟩
  exact hl.2

end Worker

end EthdaNode.Sequencer
