import EthdaNode.Sequencer.WorkerHistory

/-!
# Concurrent `AddTxTracker` calls

A call that finds no queue for its sender gives the lock back, asks the state,
and then installs a new queue without looking again. If another call has
installed a queue in the meantime, that queue leaves the pool with the
transactions it holds, and its ready transaction stays in the sorted list.

If no such queue holds a transaction, and no transaction is put aside over
another one in its queue, then every transaction that was accepted and not
replaced is in the queue of its sender.
-/

namespace EthdaNode.Sequencer

open Go Go.Outcome State Worker Option

namespace SharedWorker

/-- The accepted transactions after one more `AddTxTracker` has returned. -/
def withResult (txs : List TxTracker) (tx : TxTracker) (r : AddResult) : List TxTracker :=
  let kept := txs.filter fun t =>
    r.replacedTx.all fun replaced => replaced.hash ≠ t.hash
  if r.dropReason = none then tx :: kept else kept

/-- The transactions whose `AddTxTracker` succeeded and that have not been reported as replaced
since. -/
def accepted : List Event → List TxTracker
  | [] => []
  | .addReturned tx r :: es => withResult (accepted es) tx r
  | .addResumed tx r :: es => withResult (accepted es) tx r
  | _ :: es => accepted es

/-- The queue of the sender in the pool holds the transaction. -/
def InQueue (w : Worker) (t : TxTracker) : Prop :=
  ∃ q, w.pool.lookup t.fromAddr = some q ∧ ∃ t', q.Holds t' ∧ t'.Same t

/-- Only `AddTxTracker` is called; its first part overwrites no transaction, and its second part
finds no queue with transactions. -/
def AddsClear (_ : List Event) (m : SharedWorker) : Action → Prop
  | .start tx => ∀ q, m.worker.pool.lookup tx.fromAddr = some q →
      ∀ t, ¬q.Overwrites tx t
  | .resume _ tx => ∀ q, m.worker.pool.lookup tx.fromAddr = some q → ∀ t, ¬q.Holds t
  | .call _ => False

variable {G : TxTracker → Prop} {validIP : String → Bool} {txs : List TxTracker}

lemma mem_withResult {tx t : TxTracker} {r : AddResult} (h : t ∈ withResult txs tx r) :
    (t = tx ∧ r.dropReason = none) ∨
    (t ∈ txs ∧ ∀ replaced, r.replacedTx = some replaced → replaced.hash ≠ t.hash) := by
  have hk : t ∈ txs.filter (fun t =>
      r.replacedTx.all fun replaced => replaced.hash ≠ t.hash) →
      t ∈ txs ∧ ∀ replaced, r.replacedTx = some replaced → replaced.hash ≠ t.hash := by
    intro hm
    obtain ⟨hm, ha⟩ := List.mem_filter.mp hm
    refine ⟨hm, ?_⟩
    intro replaced hp
    rw [hp] at ha
    simpa using ha
  rw [withResult] at h
  split at h
  · next hr =>
    rcases List.mem_cons.mp h with h | h
    · exact .inl ⟨h, hr⟩
    · exact .inr (hk h)
  · exact .inr (hk h)

/-- Adding to a queue that has the accepted transactions of its sender keeps them, unless it
overwrites one. -/
lemma inQueue_withResult {w w' : Worker} {q : AddrQueue} {tx : TxTracker} {r : AddResult}
    (hk : q.Keyed) (he : w.enqueue q tx = .ok (w', r)) (hx : ∀ t ∈ txs, InQueue w t)
    (hq : ∀ t ∈ txs, t.fromAddr = tx.fromAddr → ∃ t', q.Holds t' ∧ t'.Same t)
    (ho : ∀ t, ¬q.Overwrites tx t) : ∀ t ∈ withResult txs tx r, InQueue w' t := by
  obtain ⟨hp, rfl⟩ := enqueue_eq_ok he
  intro t ht
  rcases mem_withResult ht with ⟨rfl, hr⟩ | ⟨ht, hkp⟩
  · refine ⟨(q.addTx t).1, by rw [hp, AList.lookup_insert], t, ?_, rfl, rfl⟩
    exact AddrQueue.holds_of_addTx_accepted hr
  by_cases hf : t.fromAddr = tx.fromAddr
  · refine ⟨(q.addTx tx).1, by rw [hp, hf, AList.lookup_insert], ?_⟩
    obtain ⟨s, hs, hm⟩ := hq t ht hf
    rcases AddrQueue.addTx_keeps hk hs with
      ⟨s', hs', hsame'⟩ | ⟨hrepl, _⟩ | hoverwrites
    · exact ⟨s', hs', hsame'.1.trans hm.1, hsame'.2.trans hm.2⟩
    · exact absurd hm.1 (hkp s hrepl)
    · exact absurd hoverwrites (ho s)
  · obtain ⟨q', hq', hh⟩ := hx t ht
    exact ⟨q', by rw [hp, AList.lookup_insert_ne hf, hq'], hh⟩

lemma inQueue_reorder {w : Worker} {pool : GoMap Address AddrQueue}
    (hr : Reorders w.pool pool) {t : TxTracker} (h : InQueue w t) :
    InQueue { w with pool := pool } t := by
  obtain ⟨q, hq, t', ht', hs⟩ := h
  rcases hr t.fromAddr with ⟨hn, _⟩ | ⟨q₀, notReady, hq₀, hp, hq'⟩
  · rw [hn] at hq
    cases hq
  rw [hq₀, some.injEq] at hq
  subst hq
  refine ⟨_, hq', t', ?_, hs⟩
  rcases ht' with ht' | ⟨n, ht'⟩
  · exact .inl ht'
  · exact .inr ⟨n, (AList.perm_lookup hp).symm.trans ht'⟩

variable {m : SharedWorker} {es : List Event}

lemma Does.inQueue {m' : SharedWorker} {a : Action} {e : Event} (hd : Does validIP m a m' e)
    (h : m.Consistent G) (hc : AddsClear es m a) (hu : ∀ t ∈ accepted es, InQueue m.worker t) : ∀
    t ∈ accepted (e :: es), InQueue m'.worker t := by
  cases hd with
  | wait hl => exact hu
  | @start tx w r hs =>
    rcases trackerStart_cases hs with
      ⟨rfl, reason, rfl⟩ | ⟨_, q, hq, henq⟩
    · intro t ht
      rcases mem_withResult ht with ⟨_, hr⟩ | ⟨ht, _⟩
      · cases hr
      · exact hu t ht
    refine inQueue_withResult (h.worker.keyed _ q hq) henq hu ?_ (hc q hq)
    intro t ht hf
    obtain ⟨q', hq', hh⟩ := hu t ht
    rw [hf, hq, some.injEq] at hq'
    rwa [hq']
  | fail hm => exact hu
  | @resume state tx nonce balance w r hm hrs =>
    refine inQueue_withResult (AddrQueue.keyed_new _ nonce balance) hrs hu ?_ ?_
    · intro t ht hf
      obtain ⟨q, hq, t', ht', _⟩ := hu t ht
      rw [hf] at hq
      exact absurd ht' (hc q hq t')
    · rintro t ⟨_, _, hl, _⟩
      cases hl
  | call ha => exact hc.elim

lemma AddsClear.resumesClear {a : Action} (h : AddsClear es m a) : m.ResumesClear a := by
  cases a with
  | start tx => trivial
  | resume state tx =>
    rw [ResumesClear, readyOf]
    rcases hq : m.worker.pool.lookup tx.fromAddr with _ | q
    · rfl
    cases hr : q.readyTx with
    | none => exact hr
    | some t => exact absurd (.inl hr) (h q hq t)
  | call c => exact h.elim

lemma Run.inQueue (hG : Identifies G) {limits : BatchConstraintsCfg}
    (hn : Run G validIP limits AddsClear es m) :
    m.Consistent G ∧ ∀ t ∈ accepted es, InQueue m.worker t := by
  induction hn with
  | nil => exact ⟨consistent_new limits, fun t ht => by cases ht⟩
  | reorder _ hr ih =>
    exact ⟨consistent_reorder ih.1 hr, fun t ht => inQueue_reorder hr (ih.2 t ht)⟩
  | step _ hg hc hs ih =>
    have hd := step_does hs
    exact ⟨hd.consistent hG ih.1 hg hc.resumesClear, hd.inQueue ih.1 hc ih.2⟩

/-- In every interleaving of `AddTxTracker` calls in clear places, the accepted transactions are in
the queues of their senders, and the sorted list holds only ready ones. -/
theorem accepted_inQueue {geth : GoEthereum} {signer : Signer} {txOf : Hash → LegacyTx}
    {validIP : String → Bool} {constraints : BatchConstraintsCfg} {es : List Event}
    {m : SharedWorker}
    (hrun : Run (TxTracker.Genuine geth signer txOf) validIP constraints AddsClear es m) :
    (∀ t ∈ accepted es, InQueue m.worker t) ∧ ∀ t ∈ m.worker.txSortedList.sorted, ∃ q,
    m.worker.pool.lookup t.fromAddr = some q ∧ q.readyTx = some t := by
  obtain ⟨h, hq⟩ := Run.inQueue (identifies_genuine geth signer txOf) hrun
  refine ⟨hq, ?_⟩
  intro t ht
  exact bind_eq_some_iff.mp ((h.worker.shows.mem_iff t).mp ht)

/-- Two transactions of one sender, of nonce 0 and of nonce 1. -/
def raceTx₀ : TxTracker := plainTx 1 0 1 0

@[inherit_doc raceTx₀]
def raceTx₁ : TxTracker := plainTx 2 1 1 0

def raceTxOf (h : Hash) : LegacyTx :=
  if h = plainHash 1 then plainLegacyTx 1 0 1 0 else plainLegacyTx 2 1 1 0

lemma genuine_raceTx (tx : TxTracker) (h : tx = raceTx₀ ∨ tx = raceTx₁) :
    tx.Genuine .reference plainSigner raceTxOf := by
  rcases h with rfl | rfl
  · exact ⟨zeroCounters, zeroCounters, "", 1, 0, by decide +kernel⟩
  · exact ⟨zeroCounters, zeroCounters, "", 2, 0, by decide +kernel⟩

/-- Both calls find no queue, and then both install one. -/
def raceActions : List Action :=
  [.start raceTx₀, .start raceTx₁, .resume plainState raceTx₀, .resume plainState raceTx₁]

def raceEvents : List Event :=
  [.addResumed raceTx₁ ⟨none, none⟩, .addResumed raceTx₀ ⟨none, none⟩,
    .addStarted raceTx₁, .addStarted raceTx₀]

/-- The transaction of nonce 0 is accepted and not replaced, but not in a queue; it is in the sorted
list without being ready. -/
theorem raceEvents_lose_accepted : ∃ m, Run (TxTracker.Genuine .reference plainSigner raceTxOf)
    (fun _ => true) zeroConstraints AnyAction raceEvents m ∧ raceTx₀ ∈ accepted raceEvents ∧
    ¬InQueue m.worker raceTx₀ ∧ raceTx₀ ∈ m.worker.txSortedList.sorted ∧ ¬∃ q, m.worker.pool.lookup
    raceTx₀.fromAddr = some q ∧ q.readyTx = some raceTx₀ := by
  have hac : ∃ s, raceActions.foldlM (stepAfter fun _ => true)
      (new zeroConstraints, []) = .ok s ∧ s.2 = raceEvents ∧
      s.1.worker.txSortedList.sorted = [raceTx₀] ∧
      (s.1.worker.pool.lookup raceTx₀.fromAddr).map AddrQueue.getTransactions = some [raceTx₁] :=
    ⟨_, rfl, rfl, rfl, rfl⟩
  obtain ⟨⟨m, es⟩, hac, rfl, hs, hp⟩ := hac
  have hn : ∀ q, m.worker.pool.lookup raceTx₀.fromAddr = some q → ∀ t, q.Holds t → t = raceTx₁ := by
    intro q hq t ht
    rw [hq, map_some, some.injEq] at hp
    rw [← AddrQueue.mem_txs_iff, hp, List.mem_singleton] at ht
    exact ht
  refine ⟨m, Run.actions .nil ?_ hac, by decide, ?_, by rw [hs]; simp, ?_⟩
  · intro tx htx
    refine genuine_raceTx tx ?_
    simpa [raceActions] using htx
  · rintro ⟨q, hq, t, ht, hh, _⟩
    rw [hn q hq t ht] at hh
    exact absurd hh (by decide)
  · rintro ⟨q, hq, hr⟩
    exact absurd (hn q hq _ (.inl hr)) (by decide)

/-- The first call installs the queue, and the second one adds to it: both transactions are accepted
and in the queue of their sender. -/
theorem accepted_inQueue_inTurn : ∃ es m, Run (TxTracker.Genuine .reference plainSigner raceTxOf)
    (fun _ => true) zeroConstraints AddsClear es m ∧ accepted es = [raceTx₁, raceTx₀] ∧
    InQueue m.worker raceTx₀ ∧ InQueue m.worker raceTx₁ := by
  have hstart : (new zeroConstraints).step (fun _ => true) (.start raceTx₀) =
      .ok (⟨newWorker zeroConstraints, [raceTx₀]⟩, .addStarted raceTx₀) := rfl
  have hrest : ∃ m₁ m₂, (⟨newWorker zeroConstraints, [raceTx₀]⟩ : SharedWorker).step (fun _ => true)
      (.resume plainState raceTx₀) = .ok (m₁, .addResumed raceTx₀ ⟨none, none⟩) ∧
      m₁.step (fun _ => true) (.start raceTx₁) = .ok (m₂, .addReturned raceTx₁ ⟨none, none⟩) ∧
      ∀ q, m₁.worker.pool.lookup raceTx₁.fromAddr = some q → ∀ t, ¬q.Overwrites raceTx₁ t := by
    refine ⟨_, _, rfl, rfl, fun q hq t ht => ?_⟩
    cases hq
    exact absurd ht.1 (by decide)
  obtain ⟨m₁, m₂, hresume, hreturn, hclear⟩ := hrest
  have hrun : Run (TxTracker.Genuine .reference plainSigner raceTxOf) (fun _ => true)
      zeroConstraints AddsClear [.addReturned raceTx₁ ⟨none, none⟩,
        .addResumed raceTx₀ ⟨none, none⟩, .addStarted raceTx₀] m₂ := by
    refine .step (.step (.step .nil ?_ ?_ hstart) ?_ ?_ hresume) ?_ ?_ hreturn
    · intro tx htx
      exact genuine_raceTx tx (.inl (Action.start.inj htx).symm)
    · intro q hq
      cases hq
    · intro tx htx
      cases htx
    · intro q hq
      cases hq
    · intro tx htx
      exact genuine_raceTx tx (.inr (Action.start.inj htx).symm)
    · exact hclear
  have hin := (accepted_inQueue hrun).1
  exact ⟨_, m₂, hrun, by decide, hin _ (by decide), hin _ (by decide)⟩

end SharedWorker

end EthdaNode.Sequencer
