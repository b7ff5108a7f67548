import EthdaNode.Sequencer.WorkerConsistency

/-!
# Where the transactions of a worker are

No transaction is twice in the queues of a worker: `Tidy` is the invariant. For every
function that the finalizer calls there is a lemma about which transactions come into
the queues and which ones leave them.
-/

namespace EthdaNode.Sequencer

open Go Go.Outcome State List AddrQueue GoMap

/-! ## Queues -/

namespace AddrQueue

variable {G : TxTracker → Prop} {a : AddrQueue}

def Unmixed (a : AddrQueue) : Prop :=
  ∀ r, a.readyTx = some r → ∀ n t, a.notReadyTxs.lookup n = some t → t.hash ≠ r.hash

lemma Shrinks.unmixed {a' : AddrQueue} (h : Shrinks a a') (ha : a.Unmixed) : a'.Unmixed :=
  fun r hr n t ht => ha r (h.ready r hr) n t (h.notReady n t ht)

lemma unmixed_addTx (ha : a.Unmixed) {tx : TxTracker}
    (hn : ∀ t, a.Holds t → t.hash ≠ tx.hash) : (a.addTx tx).1.Unmixed := by
  have hi : ∀ n t, (a.notReadyTxs.insert tx.nonce tx).lookup n = some t →
      t = tx ∨ a.notReadyTxs.lookup n = some t := by
    intro n t ht
    rw [lookup_insert_eq] at ht
    split at ht
    · exact .inl (Option.some.inj ht).symm
    · exact .inr ht
  rcases a.addTx_cases tx with
    ⟨_, heq⟩ | ⟨_, _, _, heq⟩ | ⟨_, _, _, heq⟩ | ⟨_, _, heq⟩
  · rwa [heq]
  · rw [heq]
    intro r hr n t ht
    cases hr
    exact hn t (.inr ⟨n, ht⟩)
  · rw [heq]
    intro r hr
    cases hr
  rw [heq]
  intro r hr n t ht
  rcases hi n t ht with rfl | ht
  · exact (hn r (.inl hr)).symm
  · exact ha r hr n t ht

section
variable (hG : Identifies G)
include hG

lemma unmixed_promote (ha : a.Unmixed) (hk : a.Keyed) (hh : ∀ t, a.Holds t → G t) :
    a.promote.Unmixed := by
  rcases a.promote_cases with ⟨he, _⟩ | ⟨tx, _, hl, _, he⟩
  · rwa [he]
  rw [he]
  intro r hr n t ht hs
  cases hr
  obtain ⟨hne, ht⟩ := lookup_of_erase ht
  have hn := hG.nonce_eq t tx (hh t (.inr ⟨n, ht⟩)) (hh tx (.inr ⟨_, hl⟩)) hs
  rw [hk.key_eq n t ht, hk.key_eq _ tx hl] at hn
  exact hne hn

lemma unmixed_keepOld (ha : a.Unmixed) (hk : a.Keyed) (hhl : ∀ t, a.Holds t → G t)
    {old : Option TxTracker} (ho : ∀ t, old = some t → G t) : (a.keepOld old).1.Unmixed := by
  rcases old with _ | old
  · exact ha
  rw [keepOld]
  split
  · next hl =>
    intro r hr n t ht hh
    rw [lookup_insert_eq] at ht
    split at ht
    · cases ht
      have hn := hG.nonce_eq old r (ho old rfl) (hhl r (.inl hr)) hh
      rw [hk.ready_nonce r hr] at hn
      rw [hn] at hl
      exact UInt64.lt_irrefl _ hl
    · exact ha r hr n t ht hh
  · exact ha

lemma unmixed_updateNonceBal (ha : a.Unmixed) (hk : a.Keyed) (hh : ∀ t, a.Holds t → G t)
    (nonce : Option UInt64) (bal : Option ℤ) :
    (a.updateCurrentNonceBalance nonce bal).1.Unmixed := by
  have hs := a.shrinks_setNonce nonce bal
  have hd := shrinks_dropReady (a.setNonceBalance nonce bal).1
  have hdp : (a.setNonceBalance nonce bal).1.dropReady.1.Keyed :=
    keyed_dropReady fun n t ht => hk.key_eq n t (hs.notReady n t ht)
  have hp : ∀ t, (a.setNonceBalance nonce bal).1.dropReady.1.promote.Holds t →
      G t := fun t ht => hh t (hs.holds (hd.holds (holds_promote ht)))
  refine unmixed_keepOld hG (unmixed_promote hG (hd.unmixed (hs.unmixed ha)) hdp
    fun t ht => hh t (hs.holds (hd.holds ht))) (keyed_promote hdp) hp ?_
  intro t ht
  exact hh t (hs.holds (.inl (dropReady_some_iff.mp ht).1))

lemma nodup_getTxs (ha : a.Unmixed) (hke : a.Keyed) (hl : ∀ t, a.Holds t → G t) :
    (a.getTransactions.map TxTracker.hash).Nodup := by
  have hv : (a.notReadyTxs.values.map TxTracker.hash).Nodup := by
    have hk : a.notReadyTxs.values.map TxTracker.nonce = a.notReadyTxs.keys := by
      rw [GoMap.values, map_map]
      refine map_congr_left fun ent he => ?_
      exact hke.key_eq _ _ ((mem_entries_iff _ _ _).mp he)
    have hnn : (a.notReadyTxs.values.map TxTracker.nonce).Nodup := by
      rw [hk]
      exact a.notReadyTxs.keys_nodup
    refine Nodup.map_on (fun s hs t ht hh => ?_) hnn.of_map
    have ho := hG.nonce_eq s t (hl s (.inr ((mem_values_iff _ s).mp hs)))
      (hl t (.inr ((mem_values_iff _ t).mp ht))) hh
    exact inj_on_of_nodup_map hnn hs ht ho
  rw [getTransactions, map_append]
  rcases hr : a.readyTx with _ | r
  · exact hv
  refine nodup_cons.mpr ⟨fun hm => ?_, hv⟩
  obtain ⟨t, ht, hh⟩ := mem_map.mp hm
  obtain ⟨n, hn⟩ := (mem_values_iff _ t).mp ht
  exact ha r hr n t hn hh
end

lemma deleteTx_ready {th : Hash} {r : TxTracker} (hr : a.readyTx = some r) (hh : r.hash = th) :
    a.deleteTx th = ({ a with readyTx := none }, some r, true) := by
  have ha : a.readyTx.any (fun tx => tx.hash = th) = true := by
    rw [hr, Option.any_some, decide_eq_true hh]
  rw [deleteTx, if_pos ha, hr]

end AddrQueue

/-! ## The worker -/

namespace Worker

variable {G : TxTracker → Prop} {w w' : Worker}

def Queued (w : Worker) (txHash : Hash) : Prop :=
  ∃ a q t, w.pool.lookup a = some q ∧ q.Holds t ∧ t.hash = txHash

structure Tidy (G : TxTracker → Prop) (w : Worker) : Prop where
  consistent : w.Consistent G
  unmixed : ∀ a q, w.pool.lookup a = some q → q.Unmixed

/-- No transaction comes into the queues, and those that are pending or from a reorg are
the same. -/
structure Narrows (w w' : Worker) : Prop where
  queued : ∀ txHash, w'.Queued txHash → w.Queued txHash
  pending : w'.pendingToStore.map TxTracker.hash = w.pendingToStore.map TxTracker.hash
  reorged : w'.reorgedTxs.map TxTracker.hash = w.reorgedTxs.map TxTracker.hash

lemma Narrows.refl (w : Worker) : Narrows w w := ⟨fun _ h => h, rfl, rfl⟩

lemma Narrows.trans {w'' : Worker} (h : Narrows w w') (h' : Narrows w' w'') : Narrows w w'' :=
  ⟨fun th hq => h.queued th (h'.queued th hq), h'.pending.trans h.pending,
    h'.reorged.trans h.reorged⟩

variable {q : AddrQueue} {th : Hash} {a : Address}

lemma queued_put (hp : w'.pool = w.pool.insert a q) (h : w'.Queued th) :
    (∃ t, q.Holds t ∧ t.hash = th) ∨ w.Queued th := by
  obtain ⟨a', q', t, hl, ht, hh⟩ := h
  rw [hp, lookup_insert_eq] at hl
  split at hl
  · cases hl
    exact .inl ⟨t, ht, hh⟩
  · exact .inr ⟨a', q', t, hl, ht, hh⟩

lemma unmixed_put (hp : w'.pool = w.pool.insert a q) (h : ∀ a q, w.pool.lookup a = some q →
    q.Unmixed) (hq : q.Unmixed) : ∀ a q, w'.pool.lookup a = some q → q.Unmixed := by
  intro a' q' hl
  rw [hp, lookup_insert_eq] at hl
  split at hl
  · cases hl
    exact hq
  · exact h a' q' hl

/-- The call leaves a tidy worker with no new transactions, if it returns. -/
def TidiesTo (G : TxTracker → Prop) {α : Type} (w : Worker) (x : Outcome WorkerError α)
    (worker : α → Worker) : Prop :=
  ∀ r, x = .ok r → (worker r).Tidy G ∧ Narrows w (worker r)

variable {α : Type} {x : Outcome WorkerError α} {wk : α → Worker}

lemma TidiesTo.trans (hn : Narrows w w') (h : TidiesTo G w' x wk) : TidiesTo G w x wk :=
  fun r hr => ⟨(h r hr).1, hn.trans (h r hr).2⟩

lemma TidiesTo.bind {β : Type} {f : α → Outcome WorkerError β} {worker' : β → Worker}
    (h : TidiesTo G w x wk) (hf : ∀ r, (wk r).Tidy G → TidiesTo G (wk r) (f r) worker') : TidiesTo G
    w (x >>= f) worker' := by
  intro r' hr'
  obtain ⟨r, hr, hr'⟩ := ok_of_bind hr'
  obtain ⟨ht, hn⟩ := h r hr
  exact (hf r ht).trans hn r' hr'

lemma TidiesTo.foldlM {α β : Type} {f : α → β → Outcome WorkerError α} {wk : α → Worker}
    {xs : List β} (hf : ∀ s x, (wk s).Tidy G → TidiesTo G (wk s) (f s x) wk) {s : α}
    (hs : (wk s).Tidy G) : TidiesTo G (wk s) (xs.foldlM f s) wk := by
  intro s' hs'
  refine foldlM_ok_invariant (P := fun s' => (wk s').Tidy G ∧
    Narrows (wk s) (wk s')) (fun s₁ x s₂ h₁ hst => ?_) hs' ⟨hs, .refl _⟩
  obtain ⟨ht, hn⟩ := hf s₁ x h₁.1 s₂ hst
  exact ⟨ht, h₁.2.trans hn⟩

lemma tidiesTo_ok {r : α} (h : (wk r).Tidy G) : TidiesTo G (wk r) (.ok r) wk := by
  intro r' hr'
  cases hr'
  exact ⟨h, .refl _⟩

/-! ## Executed transactions -/

lemma Tidy.put (h : w.Tidy G) (hc : w'.Consistent G) {q' : AddrQueue}
    (hl : w.pool.lookup a = some q) (hp : w'.pool = w.pool.insert a q') (hu : q'.Unmixed)
    (hh : ∀ t, q'.Holds t → q.Holds t) (hn : w'.pendingToStore = w.pendingToStore)
    (hr : w'.reorgedTxs = w.reorgedTxs) : w'.Tidy G ∧ Narrows w w' := by
  refine ⟨⟨hc, unmixed_put hp h.unmixed hu⟩, fun th hq => ?_, by rw [hn], by rw [hr]⟩
  rcases queued_put hp hq with ⟨t, ht, hs⟩ | hq
  · exact ⟨a, q, t, hl, hh t ht, hs⟩
  · exact hq

section
variable (hG : Identifies G)
include hG

lemma addrUpdate_tidiesTo (h : w.Tidy G) (addr : Address) (nonce : Option UInt64) (bal : Option ℤ) :
    TidiesTo G w (w.applyAddressUpdate addr nonce bal) Prod.fst := by
  intro r hr
  obtain ⟨r', hr', hc, -⟩ := addrUpdate_keepsTo hG h.consistent addr nonce bal
  cases hr.symm.trans hr'
  unfold applyAddressUpdate at hr
  rcases hl : w.pool.lookup addr with _ | q
  · rw [hl] at hr
    cases hr
    exact ⟨h, .refl w⟩
  simp only [hl, bind_ok_iff] at hr
  obtain ⟨e, -, hr⟩ := hr
  cases hr
  refine h.put hc hl rfl ?_ (fun t ht => holds_updateNonceBal ht) rfl rfl
  exact unmixed_updateNonceBal hG (h.unmixed _ q hl) (h.consistent.keyed _ q hl) (fun t ht =>
    (h.consistent.held _ q hl t ht).2) nonce bal

lemma updateTouchedFrom_tidiesTo (h : w.Tidy G) (addr : Address)
    (touchedFrom : Option InfoReadWrite) :
    TidiesTo G w (w.updateTouchedFrom addr touchedFrom) Prod.fst := by
  cases touchedFrom with
  | none => exact tidiesTo_ok h
  | some touchedFrom =>
    exact (addrUpdate_tidiesTo hG h addr touchedFrom.nonce
      touchedFrom.balance).bind fun r hr => tidiesTo_ok hr

lemma updateTouched_tidiesTo (addr : Address) (s : Worker × List TxTracker)
    (touched : Sigma fun _ : Address => InfoReadWrite) (h : s.1.Tidy G) :
    TidiesTo G s.1 (updateTouched addr s touched) Prod.fst := by
  unfold updateTouched
  split
  · exact (addrUpdate_tidiesTo hG h touched.1 none touched.2.balance).bind
      fun r hr => tidiesTo_ok hr
  · exact tidiesTo_ok h

lemma updateAfterTx_tidiesTo (h : w.Tidy G) (addr : Address)
    (touchedAddresses : GoMap Address InfoReadWrite) :
    TidiesTo G w (w.updateAfterSingleSuccessfulTxExecution addr touchedAddresses) Prod.fst :=
  (updateTouchedFrom_tidiesTo hG h addr _).bind fun _ hs =>
    TidiesTo.foldlM (updateTouched_tidiesTo hG addr) hs
end

lemma resetWipTx_tidy (h : w.Tidy G) (th : Hash) :
    (w.resetWipTx th).Tidy G ∧ Narrows w (w.resetWipTx th) := by
  have hc := consistent_resetWipTx h.consistent th
  unfold resetWipTx at hc ⊢
  split at hc
  · next hw =>
    rw [if_pos hw]
    exact ⟨⟨hc, h.unmixed⟩, fun _ hq => hq, rfl, rfl⟩
  next hw =>
  rw [if_neg hw]
  exact ⟨h, .refl w⟩

section
variable (hG : Identifies G)
include hG

lemma moveTxToNotReady_tidiesTo (h : w.Tidy G) (th : Hash) (addr : Address) (nonce : Option UInt64)
    (bal : Option ℤ) : TidiesTo G w (w.moveTxToNotReady th addr nonce bal) Prod.fst := by
  obtain ⟨ht, hn⟩ := resetWipTx_tidy h th
  refine TidiesTo.trans hn ?_
  exact (addrUpdate_tidiesTo hG ht addr nonce bal).bind fun r hr => tidiesTo_ok hr

lemma deleteQueuedTx_tidiesTo (h : w.Tidy G) (th : Hash) (addr : Address) :
    TidiesTo G w (w.deleteQueuedTx th addr) Prod.fst := by
  intro r hr
  obtain ⟨r', hr', hc, -⟩ := deleteQueuedTx_keepsTo hG h.consistent th addr
  cases hr.symm.trans hr'
  unfold deleteQueuedTx at hr
  rcases hl : w.pool.lookup addr with _ | q
  · rw [hl] at hr
    cases hr
    exact ⟨h, .refl w⟩
  simp only [hl, bind_ok_iff] at hr
  obtain ⟨e, -, hr⟩ := hr
  cases hr
  have hs := q.shrinks_deleteTx th
  exact h.put hc hl rfl (hs.unmixed (h.unmixed _ q hl)) (fun t ht => hs.holds ht) rfl rfl

lemma deleteTx_tidiesTo (h : w.Tidy G) (th : Hash) (addr : Address) :
    TidiesTo G w (w.deleteTx th addr) id := by
  obtain ⟨ht, hn⟩ := resetWipTx_tidy h th
  refine TidiesTo.trans hn ?_
  exact (deleteQueuedTx_tidiesTo hG ht th addr).bind fun r hr => tidiesTo_ok hr

lemma modifyQueue_tidy (h : w.Tidy G) (addr : Address) {f : AddrQueue → AddrQueue}
    (hf : KeepsTxs f) : (w.modifyQueue addr f).Tidy G ∧ Narrows w (w.modifyQueue addr f) ∧
    (w.modifyQueue addr f).readyOf = w.readyOf := by
  obtain ⟨hc, -⟩ := cons_modifyQueue hG h.consistent addr hf
  unfold modifyQueue at hc ⊢
  rcases hl : w.pool.lookup addr with _ | q
  · exact ⟨h, .refl w, rfl⟩
  simp only [hl] at hc
  have hs : Shrinks q (f q) :=
    ⟨fun t ht => by rwa [hf.readyTx] at ht, fun n t ht => by rwa [hf.notReadyTxs] at ht⟩
  obtain ⟨hd, hn⟩ := h.put hc hl rfl
    (hs.unmixed (h.unmixed _ q hl)) (fun t ht => hs.holds ht) rfl rfl
  refine ⟨hd, hn, ?_⟩
  have hr := readyOf_insert w addr (f q) w.txSortedList
  rw [hf.readyTx, ← readyOf_eq hl, Function.update_eq_self] at hr
  exact hr

lemma updateTxZKCounters_tidy (h : w.Tidy G) (th : Hash) (addr : Address) (used reserved :
    ZKCounters) : (w.updateTxZKCounters th addr used reserved).Tidy G ∧
    Narrows w (w.updateTxZKCounters th addr used reserved) := by
  have hc := changes_counters w th addr used reserved
  have hh := hc.field TxTracker.hash fun _ _ _ => rfl
  have hm : ∀ txs : List TxTracker,
      (txs.map (w.countersWrite th addr used reserved)).map TxTracker.hash =
      txs.map TxTracker.hash := by
    intro txs
    rw [map_map]
    exact map_congr_left fun t _ => hh t
  refine ⟨⟨consistent_mapTrackers hG h.consistent hc, fun a q hq => ?_⟩,
    fun h' hq => ?_, hm _, hm _⟩
  · obtain ⟨q₀, hq₀, -, hd, hn⟩ := lookup_mapTrackers hq
    intro r hr n t ht
    obtain ⟨r₀, hr₀, rfl⟩ := Option.map_eq_some_iff.mp (hd.symm.trans hr)
    rw [hn, lookup_mapValues, Option.map_eq_some_iff] at ht
    obtain ⟨t₀, ht₀, rfl⟩ := ht
    rw [hh, hh]
    exact h.unmixed a q₀ hq₀ r₀ hr₀ n t₀ ht₀
  obtain ⟨a, q, t, hl, ht, rfl⟩ := hq
  obtain ⟨q₀, hq₀, -, hd, hn⟩ := lookup_mapTrackers hl
  rcases ht with ht | ⟨n, ht⟩
  · obtain ⟨t₀, ht₀, rfl⟩ := Option.map_eq_some_iff.mp (hd.symm.trans ht)
    exact ⟨a, q₀, t₀, hq₀, .inl ht₀, (hh t₀).symm⟩
  rw [hn, lookup_mapValues, Option.map_eq_some_iff] at ht
  obtain ⟨t₀, ht₀, rfl⟩ := ht
  exact ⟨a, q₀, t₀, hq₀, .inr ⟨n, ht₀⟩, (hh t₀).symm⟩
end

variable {t : TxTracker} {addr : Address}

lemma deleteQueuedTx_ready (hG : Identifies G) (h : w.Tidy G) (hrd : w.readyOf addr = some t)
    (hh : t.hash = th) {r : Worker × Option TxTracker} (hd : w.deleteQueuedTx th addr = .ok r) :
    r.2 = some t ∧ ¬r.1.Queued th ∧ r.1.pendingToStore = w.pendingToStore ∧ r.1.reorgedTxs =
    w.reorgedTxs := by
  obtain ⟨q, ho, hq⟩ := Option.bind_eq_some_iff.mp hrd
  obtain ⟨hf, hg⟩ := h.consistent.ready hrd
  unfold deleteQueuedTx at hd
  simp only [ho, bind_ok_iff, deleteTx_ready hq hh] at hd
  obtain ⟨e, -, hr⟩ := hd
  cases hr
  refine ⟨rfl, ?_, rfl, rfl⟩
  rintro ⟨a, q', s, hl, hs, hsh⟩
  rw [lookup_insert_eq] at hl
  split at hl
  · cases hl
    rcases hs with hs | ⟨n, hs⟩
    · cases hs
    · exact h.unmixed _ q ho t hq n s hs (hsh.trans hh.symm)
  next hn =>
  obtain ⟨hsf, hsg⟩ := h.consistent.held a q' hl s hs
  refine hn ?_
  rw [← hsf, ← hf]
  exact hG.from_eq s t hsg hg (hsh.trans hh.symm)

/-- `MoveTxPendingToStore` for a transaction that is ready: it leaves its queue and
becomes the last pending one. -/
lemma moveTxPendingToStore_spec (hG : Identifies G) (h : w.Tidy G) (hd : w.readyOf addr = some t)
    (hh : t.hash = th) (hm : w.moveTxPendingToStore th addr = .ok w') : w'.Tidy G ∧
    (∀ h, w'.Queued h → w.Queued h ∧ h ≠ th) ∧ w.Queued th ∧ w'.pendingToStore.map TxTracker.hash =
    w.pendingToStore.map TxTracker.hash ++ [th] ∧ w'.reorgedTxs.map TxTracker.hash =
    w.reorgedTxs.map TxTracker.hash := by
  obtain ⟨r, he, hm⟩ := ok_of_bind hm
  obtain ⟨hdl, hnt, hp, hr⟩ := deleteQueuedTx_ready hG h hd hh he
  obtain ⟨ht, ha⟩ := deleteQueuedTx_tidiesTo hG h th addr r he
  have hap : (r.1.appendPending r.2).Tidy G := by
    refine ⟨consistent_appendPending ht.consistent fun s hs => ?_, ht.unmixed⟩
    obtain rfl := Option.mem_unique hdl hs
    exact (h.consistent.ready hd).2
  obtain ⟨hmd, hn, -⟩ := modifyQueue_tidy hG hap addr (keepsTxs_addPendingTx th)
  cases hm
  refine ⟨hmd, fun h' hq => ?_, ?_, ?_, ?_⟩
  · have hq' : r.1.Queued h' := hn.queued h' hq
    exact ⟨ha.queued h' hq', fun heq => hnt (heq ▸ hq')⟩
  · obtain ⟨q, hl, hq⟩ := Option.bind_eq_some_iff.mp hd
    exact ⟨addr, q, t, hl, .inl hq, hh⟩
  · rw [hn.pending, appendPending, hdl, hp, map_append, ← hh]
    rfl
  · rw [hn.reorged, appendPending, hr]

lemma deletePending_others {ind : List ℕ} {s s' : PendingSlice} (hs : ∀ t ∈ s.array, t.hash ≠ th)
    (h : ind.foldlM (deletePendingAt th) s = .ok s') : s' = s := by
  refine foldlM_ok_invariant (P := fun s' => s' = s) (fun s₁ i s₂ h₁ hst => ?_) h rfl
  subst h₁
  obtain ⟨t, ht, hst⟩ := ok_of_bind hst
  rw [if_neg (hs t (mem_of_getElem? (index_ok_iff.mp ht)))] at hst
  exact (ok.inj hst).symm

lemma deletePending_head {rest : List TxTracker} (hh : t.hash = th) (he : ∀ s ∈ rest, s.hash ≠ th)
    {s : PendingSlice} (h : (List.range (t :: rest).length).foldlM (deletePendingAt th) ⟨t :: rest,
    (t :: rest).length⟩ = .ok s) : s.array.take s.len = rest := by
  rw [length_cons, range_succ_eq_map, foldlM_cons, bind_ok_iff] at h
  obtain ⟨s₁, hf, h⟩ := h
  have hs₁ : s₁ = ⟨rest ++ (t :: rest).drop rest.length, rest.length⟩ := by
    obtain ⟨t', ht', hf⟩ := ok_of_bind hf
    cases index_ok_iff.mp ht'
    rw [if_pos hh] at hf
    obtain ⟨rest', hr, hf⟩ := ok_of_bind hf
    obtain ⟨-, hr⟩ := slice_ok_iff.mp hr
    rw [← ok.inj hf, ← hr]
    simp
  subst hs₁
  rcases rest with _ | ⟨first, rest⟩
  · cases h
    rfl
  rw [deletePending_others ?_ h]
  · exact take_left
  intro t' ht'
  rcases mem_append.mp ht' with ht' | ht'
  · exact he t' ht'
  · exact he t' (mem_of_mem_drop (i := rest.length) ht')

lemma deletePendingTx_head (hG : Identifies G) (h : w.Tidy G) {rest : List Hash}
    (hp : w.pendingToStore.map TxTracker.hash = th :: rest) (hrs : th ∉ rest)
    (hd : w.deleteTxPendingToStore th addr = .ok w') : w'.Tidy G ∧ (∀ h, w'.Queued h → w.Queued h) ∧
    w'.pendingToStore.map TxTracker.hash = rest ∧ w'.reorgedTxs.map TxTracker.hash =
    w.reorgedTxs.map TxTracker.hash ∧ w'.readyOf = w.readyOf := by
  obtain ⟨t, txs, hc, hh, ht⟩ := map_eq_cons_iff.mp hp
  obtain ⟨s, hl, hd⟩ := ok_of_bind hd
  rw [hc] at hl
  have ho : ∀ s ∈ txs, s.hash ≠ th := by
    intro s hs hq
    refine hrs ?_
    rw [← ht, ← hq]
    exact mem_map_of_mem hs
  have he := deletePending_head hh ho hl
  have htd : ({ w with pendingToStore := s.array.take s.len } : Worker).Tidy G := by
    refine ⟨⟨h.consistent.shows, h.consistent.keyed, h.consistent.held, fun t' ht' => ?_⟩,
      h.unmixed⟩
    refine h.consistent.pending t' ?_
    rw [hc]
    exact mem_cons_of_mem t (he ▸ ht')
  obtain ⟨hm, hn, hr⟩ := modifyQueue_tidy hG htd addr (keepsTxs_deletePending th)
  cases hd
  refine ⟨hm, hn.queued, ?_, hn.reorged, hr⟩
  rw [hn.pending, he, ht]

/-- The call brings at most one transaction into the queues. -/
structure Widens (txHash : Hash) (w w' : Worker) : Prop where
  queued : ∀ h, w'.Queued h → h = txHash ∨ w.Queued h
  pending : w'.pendingToStore = w.pendingToStore
  reorged : w'.reorgedTxs = w.reorgedTxs

variable {r : Worker × AddResult}

lemma enqueue_tidy (hG : Identifies G) (h : w.Tidy G) {tx : TxTracker} (hk : q.Keyed)
    (hu : q.Unmixed) (hh : ∀ t, q.Holds t → t.fromAddr = tx.fromAddr ∧ G t)
    (hr : w.readyOf tx.fromAddr = q.readyTx) (hx : G tx) (hqu : ∀ t, q.Holds t → w.Queued t.hash)
    (hn : ¬w.Queued tx.hash) (hl : w.enqueue q tx = .ok r) : r.1.Tidy G ∧ Widens tx.hash w r.1 := by
  obtain ⟨e, hen, hc⟩ := enqueue_spec hG h.consistent hk hh hr hx
  cases hl.symm.trans hen
  have ha : (q.addTx tx).1.Unmixed := unmixed_addTx hu fun t ht he => hn (he ▸ hqu t ht)
  refine ⟨⟨hc, unmixed_put rfl h.unmixed ha⟩, fun h' hq => ?_, rfl, rfl⟩
  rcases queued_put rfl hq with ⟨t, ht, rfl⟩ | hq
  · rcases holds_addTx ht with rfl | ht
    · exact .inl rfl
    · exact .inr (hqu t ht)
  · exact .inr hq

lemma addTxTracker_tidy (hG : Identifies G) (h : w.Tidy G) (validIP : String → Bool)
    (state : StateInterface) {tx : TxTracker} (hx : G tx) (hn : ¬w.Queued tx.hash)
    (hc : w.addTxTracker validIP state tx = .ok r) : r.1.Tidy G ∧ Widens tx.hash w r.1 := by
  have hm : w.Tidy G ∧ Widens tx.hash w w := ⟨h, fun _ hq => .inr hq, rfl, rfl⟩
  obtain ⟨⟨w₁, started⟩, hsr, ha⟩ := ok_of_bind hc
  cases started with
  | some result =>
    cases ha
    rcases trackerStart_cases hsr with ⟨rfl, -⟩ | ⟨-, q, hl, hen⟩
    · exact hm
    · exact enqueue_tidy hG h (h.consistent.keyed _ q hl) (h.unmixed _ q hl) (h.consistent.held _ q
        hl) (readyOf_eq hl) hx (fun t ht => ⟨_, q, t, hl, ht, rfl⟩) hn hen
  | none =>
    obtain ⟨rfl, -, hl⟩ := trackerStart_eq_none hsr
    cases hs : state.nonceBalance tx.fromAddr with
    | error reason =>
      simp only [hs] at ha
      cases ha
      exact hm
    | ok ans =>
      simp only [hs] at ha
      have he := not_holds_new tx.fromAddr ans.1 ans.2
      exact enqueue_tidy hG h (keyed_new _ ans.1 ans.2)
        (fun r hr => by cases hr) (fun t ht => absurd ht (he t))
        (by rw [readyOf, hl]; rfl) hx (fun t ht => absurd ht (he t)) hn ha

/-- The variables of the first loop of `RestoreTxsPendingToStore`: the transactions to
add again are no longer in the queues. -/
structure Removed (G : TxTracker → Prop) (w : Worker) (s : Worker × List TxTracker) :
    Prop where
  tidy : s.1.Tidy G
  genuine : ∀ t ∈ s.2, G t
  nodup : (s.2.map TxTracker.hash).Nodup
  absent : ∀ t ∈ s.2, ¬s.1.Queued t.hash
  queued : ∀ h, s.1.Queued h → w.Queued h
  source : ∀ t ∈ s.2, t.hash ∈ w.pendingToStore.map TxTracker.hash ∨ w.Queued t.hash
  reorged : s.1.reorgedTxs = w.pendingToStore

lemma queued_erase {e : TxSortedList} {h : Hash}
    (hq : ({ w with pool := w.pool.erase addr, txSortedList := e } : Worker).Queued h) :
    ∃ a q t, a ≠ addr ∧ w.pool.lookup a = some q ∧ q.Holds t ∧ t.hash = h := by
  obtain ⟨a, q, t, hl, ht, hh⟩ := hq
  rw [lookup_erase_eq] at hl
  split at hl
  · cases hl
  · next hn => exact ⟨a, q, t, hn, hl, ht, hh⟩

lemma Removed.step (hG : Identifies G) {s s' : Worker × List TxTracker} {addr : Address}
    (h : Removed G w s) (hm : removeQueue s addr = .ok s') : Removed G w s' := by
  obtain ⟨r, hr, hc, he⟩ := removeQueue_spec ⟨h.tidy.consistent, h.genuine⟩ addr
  cases hm.symm.trans hr
  unfold removeQueue at hm
  rcases hl : s.1.pool.lookup addr with _ | q
  · rw [hl] at hm
    cases hm
    exact h
  simp only [hl, bind_ok_iff] at hm
  obtain ⟨e, -, hm⟩ := hm
  cases hm
  have hhl := h.tidy.consistent.held addr q hl
  have hu : ∀ t, q.Holds t → s.1.Queued t.hash := fun t ht => ⟨addr, q, t, hl, ht, rfl⟩
  refine ⟨⟨hc, fun a q' hq' => ?_⟩, he, ?_, fun t ht hq => ?_,
    fun h' hq => ?_, fun t ht => ?_, h.reorged⟩
  · rw [lookup_erase_eq] at hq'
    split at hq'
    · cases hq'
    · exact h.tidy.unmixed a q' hq'
  · rw [map_append]
    refine h.nodup.append (nodup_getTxs hG (h.tidy.unmixed _ q hl)
      (h.tidy.consistent.keyed _ q hl) fun t ht => (hhl t ht).2) ?_
    intro h' hs hq
    obtain ⟨t, ht, rfl⟩ := mem_map.mp hs
    obtain ⟨t', ht', hh⟩ := mem_map.mp hq
    exact h.absent t ht (hh ▸ hu t' ((q.mem_txs_iff t').mp ht'))
  · obtain ⟨a, q', t', hn, ho, ht', hh⟩ := queued_erase hq
    rcases mem_append.mp ht with ht | ht
    · exact h.absent t ht ⟨a, q', t', ho, ht', hh⟩
    obtain ⟨hf, hg⟩ := hhl t ((q.mem_txs_iff t).mp ht)
    obtain ⟨hfm, hge⟩ := h.tidy.consistent.held a q' ho t' ht'
    refine hn ?_
    rw [← hfm, hG.from_eq t' t hge hg hh, hf]
  · obtain ⟨a, q', t', -, ho, ht', hh⟩ := queued_erase hq
    exact h.queued h' ⟨a, q', t', ho, ht', hh⟩
  rcases mem_append.mp ht with ht | ht
  · exact h.source t ht
  · exact .inr (h.queued _ (hu t ((q.mem_txs_iff t).mp ht)))

variable {validIP : String → Bool} {state : ℕ → StateInterface}

lemma restoreTxs_tidy (hG : Identifies G) {restored : List (TxTracker × ℕ)} {s s' : RestoreState}
    (h : s.worker.Tidy G) (hg : ∀ r ∈ restored, G r.1)
    (hn : (restored.map fun r => r.1.hash).Nodup) (ha : ∀ r ∈ restored, ¬s.worker.Queued r.1.hash)
    (hl : restored.foldlM (restoreTx validIP state) s = .ok s') : s'.worker.Tidy G ∧
    (∀ h, s'.worker.Queued h → s.worker.Queued h ∨ h ∈ restored.map fun r => r.1.hash) ∧
    s'.worker.pendingToStore = s.worker.pendingToStore ∧ s'.worker.reorgedTxs =
    s.worker.reorgedTxs := by
  induction restored generalizing s with
  | nil =>
    cases hl
    exact ⟨h, fun _ hq => .inl hq, rfl, rfl⟩
  | cons r rest ih =>
    rw [foldlM_cons, bind_ok_iff] at hl
    obtain ⟨s₁, hs, hl⟩ := hl
    obtain ⟨added, hd, hs⟩ := ok_of_bind hs
    cases hs
    obtain ⟨htd, hw⟩ := addTxTracker_tidy hG h validIP (state r.2)
      (hg r mem_cons_self) (ha r mem_cons_self) hd
    obtain ⟨hf, hrs⟩ := nodup_cons.mp hn
    have habsent' : ∀ r' ∈ rest, ¬added.1.Queued r'.1.hash := by
      intro r' hr' hq
      rcases hw.queued _ hq with he | hq
      · exact hf (mem_map.mpr ⟨r', hr', he⟩)
      · exact ha r' (mem_cons_of_mem r hr') hq
    obtain ⟨ht, hqd, hp, hr⟩ := ih htd (fun r' hr' => hg r' (mem_cons_of_mem r hr')) hrs habsent' hl
    refine ⟨ht, fun h' hq => ?_, hp.trans hw.pending, hr.trans hw.reorged⟩
    rcases hqd h' hq with hq | hm
    · rcases hw.queued h' hq with rfl | hq
      · exact .inr mem_cons_self
      · exact .inl hq
    · exact .inr (mem_cons_of_mem _ hm)

/-- `RestoreTxsPendingToStore`: the pending transactions go back to the queues or are
dropped. -/
lemma restoreTxsPendingToStore_tidy (hG : Identifies G) (h : w.Tidy G) {visit : RangeOrder}
    (hn : (w.pendingToStore.map TxTracker.hash).Nodup)
    (ha : ∀ h ∈ w.pendingToStore.map TxTracker.hash, ¬w.Queued h)
    {r : Worker × List TxTracker × List TxTracker}
    (hc : w.restoreTxsPendingToStore validIP visit state = .ok r) :
    r.1.Tidy G ∧ (∀ h, r.1.Queued h → w.Queued h ∨ h ∈ w.pendingToStore.map TxTracker.hash) ∧
    r.1.pendingToStore = [] ∧ r.1.reorgedTxs = w.pendingToStore := by
  obtain ⟨removed, he, hc⟩ := ok_of_bind hc
  obtain ⟨s, hl, hc⟩ := ok_of_bind hc
  cases hc
  have hm : Removed G w removed := by
    refine foldlM_ok_invariant (fun _ _ _ hs hst => hs.step hG hst) he ?_
    exact ⟨⟨⟨h.consistent.shows, h.consistent.keyed, h.consistent.held, h.consistent.pending⟩,
      h.unmixed⟩, h.consistent.pending, hn, fun t ht => ha _ (mem_map_of_mem ht), fun _ hq => hq,
      fun t ht => .inl (mem_map_of_mem ht), rfl⟩
  have hcr : ({ removed.1 with
      pendingToStore := [], wipTx := none } : Worker).Tidy G :=
    ⟨⟨hm.tidy.consistent.shows, hm.tidy.consistent.keyed,
      hm.tidy.consistent.held, nofun⟩, hm.tidy.unmixed⟩
  have hmp : (removed.2.zipIdx.map fun r => r.1.hash) = removed.2.map TxTracker.hash := by
    conv_rhs => rw [← zipIdx_map_fst 0 removed.2, map_map]
    rfl
  have hmm : ∀ r ∈ removed.2.zipIdx, r.1 ∈ removed.2 := fun r hr => fst_mem_of_mem_zipIdx hr
  obtain ⟨hd, hqd, hp, hre⟩ := restoreTxs_tidy hG hcr (fun r hr => hm.genuine _ (hmm r hr)) (hmp ▸
    hm.nodup) (fun r hr => hm.absent _ (hmm r hr)) hl
  refine ⟨hd, fun h' hq => ?_, hp, hre.trans hm.reorged⟩
  rcases hqd h' hq with hq | hb
  · exact .inl (hm.queued h' hq)
  rw [hmp] at hb
  obtain ⟨t, ht, rfl⟩ := mem_map.mp hb
  exact (hm.source t ht).symm

lemma bestFit_tidy (h : w.Tidy G) {rem : BatchResources} {high : ZKCounters} {n : ℕ} {schedule :
    List ℕ} {r : Except WorkerError TxTracker} (hb :
    w.getBestFittingTx rem high n schedule = .ok (w', r)) : w'.Tidy G ∧ w'.Queued = w.Queued ∧
    w'.pendingToStore = w.pendingToStore ∧ ∀ tx, r = .ok tx → ∃ t, w'.readyOf tx.fromAddr = some t ∧
    t.hash = tx.hash := by
  have hcn := consistent_bestFit h.consistent hb
  obtain ⟨wip, reorged, rfl, hc⟩ := bestFit_cases hb
  refine ⟨⟨hcn, h.unmixed⟩, rfl, rfl, ?_⟩
  rintro tx rfl
  rcases hc with ⟨tx', ht, -, hn⟩ | ⟨reason, hr, -⟩ | ⟨tx', ht, -, hm, -⟩
  · cases ht
    exact (nextReorgedTx_eq_some hn).2
  · cases hr
  · cases ht
    exact ⟨tx, (h.consistent.shows.mem_iff tx).mp hm, rfl⟩

lemma queued_of_readyOf (h : w.readyOf addr = some t) : w.Queued t.hash := by
  obtain ⟨q, hl, hq⟩ := Option.bind_eq_some_iff.mp h
  exact ⟨addr, q, t, hl, .inl hq, rfl⟩

end Worker

end EthdaNode.Sequencer
