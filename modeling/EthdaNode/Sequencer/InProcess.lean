import EthdaNode.Sequencer.WorkerHistory

/-!
# The transaction in process

From `GetBestFittingTx` until the finalizer has stored or given up a transaction,
no other one of its sender and nonce may be accepted, and it may not be replaced
or expire. What the worker has for this is `wipTx`, which is compared in the
first part of `AddTxTracker` only, is not set for the transactions of a reorg,
and is not looked at by `ExpireTransactions`.

`Guarded` collects the conditions under which the protection holds: the finalizer
ends a transaction before it asks for the next one or restores, no transaction of
a reorg is returned, the transaction in process does not expire, and no waiting
`AddTxTracker` installs a queue for its sender.
-/

namespace EthdaNode.Sequencer

open Go Go.Outcome State List Worker

namespace SharedWorker

/-- A transaction that `GetBestFittingTx` has returned, and whether it has been
moved to the pending ones. -/
structure Processing where
  tx : TxTracker
  moved : Bool

/-- The transactions in process. They end by `DeleteTx` or `MoveTxToNotReady`, or by
`MoveTxPendingToStore` and `UpdateAfterSingleSuccessfulTxExecution`. -/
def inProcess : List Event → List Processing
  | [] => []
  | .called (.getBestFittingTx _ _ _ _) (.fitting (.ok tx)) :: es => ⟨tx, false⟩ :: inProcess es
  | .called (.deleteTx txHash _) _ :: es => (inProcess es).filter fun p => p.tx.hash ≠ txHash
  | .called (.moveTxToNotReady txHash _ _ _) _ :: es =>
    (inProcess es).filter fun p => p.tx.hash ≠ txHash
  | .called (.moveTxPendingToStore txHash _) _ :: es =>
    (inProcess es).map fun p => { p with moved := p.moved || p.tx.hash = txHash }
  | .called (.updateAfterSingleSuccessfulTxExecution fromAddr _) _ :: es =>
    (inProcess es).filter fun p => ¬(p.moved ∧ p.tx.fromAddr = fromAddr)
  | _ :: es => inProcess es

/-- An `AddTxTracker` accepts no other transaction of the sender and nonce of `t`, and does not
replace `t`. -/
def Spares (t tx : TxTracker) (r : AddResult) : Prop :=
  (r.dropReason = none → tx.fromAddr = t.fromAddr → tx.nonce = t.nonce → tx.hash = t.hash) ∧
    ∀ replaced, r.replacedTx = some replaced → replaced.hash ≠ t.hash

/-- The event does no harm to the transaction `t` in process. -/
def Protects (t : TxTracker) : Event → Prop
  | .addReturned tx r => Spares t tx r
  | .addResumed tx r => Spares t tx r
  | .called (.expireTransactions _ _) (.txs txs) => ∀ s ∈ txs, s.hash ≠ t.hash
  | _ => True

def Fitting : Event → Prop
  | .called (.getBestFittingTx remaining high _ _) (.fitting (.ok tx)) =>
    fitsIn remaining high tx = true
  | _ => True

/-- In the whole history the transactions in process are protected, and the ones
that are returned fit. -/
def Protected : List Event → Prop
  | [] => True
  | e :: es => (∀ p ∈ inProcess es, Protects p.tx e) ∧ Fitting e ∧ Protected es

/-- No transaction of a reorg is the ready transaction of its sender. -/
def NoReorgedReady (w : Worker) : Prop :=
  ∀ reorgedTx ∈ w.reorgedTxs, ∀ t, w.readyOf reorgedTx.fromAddr = some t → t.hash ≠ reorgedTx.hash

def Guarded (es : List Event) (m : SharedWorker) : Action → Prop
  | .resume _ tx => m.worker.readyOf tx.fromAddr = none ∧
      ∀ p ∈ inProcess es, p.tx.fromAddr ≠ tx.fromAddr
  | .call (.getBestFittingTx _ _ _ _) => inProcess es = [] ∧ NoReorgedReady m.worker
  | .call (.restoreTxsPendingToStore _ _) => inProcess es = []
  | .call (.expireTransactions maxTime now) => ∀ p ∈ inProcess es, ∀ a q t,
      m.worker.pool.lookup a = some q → q.Holds t → t.hash = p.tx.hash →
        t.expired maxTime (now t) = false
  | _ => True

variable {G : TxTracker → Prop} {validIP : String → Bool}

/-! ## The guard -/

/-- The guard of the worker is set for the transaction. -/
def Guards (w : Worker) (t : TxTracker) : Prop :=
  ∃ wip, w.wipTx = some wip ∧ wip.Same t ∧ wip.fromAddr = t.fromAddr

variable {t : TxTracker} {w' w : Worker}

lemma Guards.of_sameWip (h : Guards w t) (hp : SameWip w w') : Guards w' t := by
  obtain ⟨wip, hw, hm, hr⟩ := h
  obtain ⟨wip', hw', hs, hf⟩ := hp wip hw
  exact ⟨wip', hw', ⟨hs.1.trans hm.1, hs.2.trans hm.2⟩, hf.trans hr⟩

lemma Guards.resetWipTx (h : Guards w t) {th : Hash} (hn : t.hash ≠ th) :
    Guards (w.resetWipTx th) t := by
  obtain ⟨wip, hw, hs, hf⟩ := h
  refine ⟨wip, ?_, hs, hf⟩
  have ho : ¬(w.wipTx.any fun wip => wip.hash = th) := by
    rw [hw]
    simpa [hs.1] using hn
  rw [Worker.resetWipTx, if_neg ho, hw]

variable {tx : TxTracker}

lemma checkTx_eq_none (h : w.checkTx validIP tx = none) {wip : TxTracker}
    (hw : w.wipTx = some wip) (hf : wip.fromAddr = tx.fromAddr) : wip.nonce ≠ tx.nonce := by
  intro hn
  have ha : w.wipTx.any fun wip => wip.fromAddr = tx.fromAddr ∧ wip.nonce = tx.nonce := by
    rw [hw]
    simp [hf, hn]
  rw [checkTx, if_pos ha] at h
  split at h
  · cases h
  split at h
  · cases h
  · cases h

lemma spares_of_start (hG : Identifies G) (h : w.Consistent G) {r : AddResult} (ht : G t)
    (hgr : Guards w t) (hs : w.addTxTrackerStart validIP tx = .ok (w', some r)) :
    Spares t tx r := by
  rcases trackerStart_cases hs with
    ⟨_, reason, rfl⟩ | ⟨hc, q, hq, henq⟩
  · refine ⟨?_, ?_⟩
    · intro hrs
      cases hrs
    · intro replaced hr
      cases hr
  obtain ⟨_, rfl⟩ := enqueue_eq_ok henq
  obtain ⟨wip, hw, hm, hi⟩ := hgr
  have ho : tx.fromAddr = t.fromAddr → tx.nonce ≠ t.nonce := by
    intro hf hn
    exact checkTx_eq_none hc hw (hi.trans hf.symm) (hm.2.trans hn.symm)
  refine ⟨fun _ hf hn => absurd hn (ho hf), ?_⟩
  intro replaced hr hh
  obtain ⟨hl, hn⟩ := AddrQueue.holds_of_replacedTx (h.keyed _ q hq) hr
  obtain ⟨hf, hg⟩ := h.held _ q hq replaced hl
  refine ho (hf.symm.trans (hG.from_eq _ _ hg ht hh)) ?_
  exact hn.symm.trans (hG.nonce_eq _ _ hg ht hh)

lemma spares_of_resume {r : AddResult} {nonce : UInt64} {bal : ℤ} (hn : t.fromAddr ≠ tx.fromAddr)
    (hr : w.addTxTrackerResume tx nonce bal = .ok (w', r)) : Spares t tx r := by
  obtain ⟨_, rfl⟩ := enqueue_eq_ok hr
  refine ⟨fun _ hf => absurd hf.symm hn, ?_⟩
  intro replaced hp
  have hh := (AddrQueue.holds_of_replacedTx (AddrQueue.keyed_new _ nonce bal) hp).1
  exact absurd hh (AddrQueue.not_holds_new _ nonce bal replaced)

/-- What `GetBestFittingTx` returns apart from a reorg's transaction: one that fits, with the guard
set. -/
lemma bestFit_of_noReorgedReady (h : w.Consistent G) {rem : BatchResources} {high : ZKCounters}
    {n : ℕ} {schedule : List ℕ} (he : NoReorgedReady w) (hb :
    w.getBestFittingTx rem high n schedule = .ok (w', .ok tx)) : G tx ∧ Guards w' tx ∧
    fitsIn rem high tx = true := by
  obtain ⟨wip, reorged, rfl, hc⟩ := bestFit_cases hb
  rcases hc with ⟨_, _, _, hn⟩ | ⟨_, hr, _⟩ | ⟨tx', hr, rfl, hm, hf⟩
  · obtain ⟨hm, t, ht, hh⟩ := nextReorgedTx_eq_some hn
    exact absurd hh (he _ hm t ht)
  · cases hr
  cases hr
  have hd := (h.shows.mem_iff tx).mp hm
  exact ⟨(h.ready hd).2, ⟨tx, rfl, ⟨rfl, rfl⟩, rfl⟩, hf⟩

structure Guarding (G : TxTracker → Prop) (es : List Event) (m : SharedWorker) :
    Prop where
  consistent : m.Consistent G
  guards : ∀ p ∈ inProcess es, G p.tx ∧ Guards m.worker p.tx

variable {es : List Event}

lemma inProcess_called {c : Call} (hc : c.KeepsWip) {r : Result} {p : Processing}
    (hp : p ∈ inProcess (.called c r :: es)) :
    ∃ p₀ ∈ inProcess es, p₀.tx = p.tx ∧ ∀ w, Guards w p.tx → Guards (c.reset w) p.tx := by
  cases c with
  | updateAfterSingleSuccessfulTxExecution fa ta =>
    exact ⟨p, (mem_filter.mp hp).1, rfl, fun w hw => hw⟩
  | moveTxToNotReady th fa nonce balance =>
    obtain ⟨hm, hn⟩ := mem_filter.mp hp
    exact ⟨p, hm, rfl, fun w hw => hw.resetWipTx (by simpa using hn)⟩
  | deleteTx th addr =>
    obtain ⟨hm, hn⟩ := mem_filter.mp hp
    exact ⟨p, hm, rfl, fun w hw => hw.resetWipTx (by simpa using hn)⟩
  | moveTxPendingToStore th addr =>
    obtain ⟨p₀, hm, rfl⟩ := mem_map.mp hp
    exact ⟨p₀, hm, rfl, fun w hw => hw⟩
  | restoreTxsPendingToStore visits state => exact hc.elim
  | getBestFittingTx remaining high n sc => exact hc.elim
  | _ => exact ⟨p, hp, rfl, fun w hw => hw⟩

lemma Guarding.called (hG : Identifies G) {es : List Event} {m : SharedWorker} (h : Guarding G es m)
    {c : Call} {w : Worker} {r : Result} (hl : m.worker.call validIP c = .ok (w, r))
    (hc : c.KeepsWip) : ∀ p ∈ inProcess (.called c r :: es), G p.tx ∧ Guards w p.tx := by
  intro p hp
  obtain ⟨p₀, hm, he, hr⟩ := inProcess_called hc hp
  obtain ⟨hn, hg⟩ := h.guards p₀ hm
  rw [he] at hn hg
  have hw := (call_keeps hG h.consistent.worker hl).2 hc
  exact ⟨hn, (hr m.worker hg).of_sameWip hw⟩

variable {m' m : SharedWorker} {e : Event} {a : Action}

lemma Does.guards (hG : Identifies G) (hd : Does validIP m a m' e) (h : Guarding G es m)
    (hgn : ∀ tx, a = .start tx → G tx) (hg : Guarded es m a) :
    ∀ p ∈ inProcess (e :: es), G p.tx ∧ Guards m'.worker p.tx := by
  cases hd with
  | wait hl => exact h.guards
  | start hs =>
    have hw := ((trackerStart_keepsTo hG validIP h.consistent.worker (hgn _ rfl)).of_eq hs).2
    exact fun p hp => ⟨(h.guards p hp).1, (h.guards p hp).2.of_sameWip hw⟩
  | fail hm => exact h.guards
  | resume hm hr =>
    have hw := ((trackerResume_keepsTo hG h.consistent.worker
      (h.consistent.waiting _ hm) hg.1 _ _).of_eq hr).2
    exact fun p hp => ⟨(h.guards p hp).1, (h.guards p hp).2.of_sameWip hw⟩
  | @call c w r hc =>
    cases c with
    | getBestFittingTx remaining high n sc =>
      obtain ⟨⟨w', r'⟩, hb, he⟩ := ok_of_bind hc
      cases he
      intro p hp
      rcases r' with reason | tx
      · have hn : p ∈ inProcess es := hp
        rw [hg.1] at hn
        cases hn
      have ho : p ∈ ⟨tx, false⟩ :: inProcess es := hp
      rw [hg.1, mem_singleton] at ho
      obtain ⟨hG', hu, _⟩ := bestFit_of_noReorgedReady h.consistent.worker hg.2 hb
      rw [ho]
      exact ⟨hG', hu⟩
    | restoreTxsPendingToStore visits state =>
      intro p hp
      have hn : p ∈ inProcess es := hp
      rw [show inProcess es = [] from hg] at hn
      cases hn
    | _ => exact h.called hG hc trivial

lemma Does.protects (hG : Identifies G) (hd : Does validIP m a m' e) (h : Guarding G es m)
    (hg : Guarded es m a) : ∀ p ∈ inProcess es, Protects p.tx e := by
  intro p hp
  obtain ⟨hn, hu⟩ := h.guards p hp
  cases hd with
  | wait hl => trivial
  | start ht => exact spares_of_start hG h.consistent.worker hn hu ht
  | fail hm => trivial
  | resume hm hr => exact spares_of_resume (hg.2 p hp) hr
  | @call c w r hc =>
    cases c with
    | expireTransactions mt now =>
      obtain ⟨⟨w', txs⟩, hx, heq⟩ := ok_of_bind hc
      cases heq
      intro s hs hh
      obtain ⟨he, a, q, hq, hhl⟩ := expire_expired hx s hs
      rw [hg p hp a q s hq hhl hh] at he
      cases he
    | _ => trivial

lemma Does.fitting (hd : Does validIP m a m' e) (h : Guarding G es m)
    (hg : Guarded es m a) : Fitting e := by
  cases hd with
  | wait hl => trivial
  | start hs => trivial
  | fail hm => trivial
  | resume hm hr => trivial
  | @call c w r hc =>
    cases c with
    | getBestFittingTx remaining high n sc =>
      obtain ⟨⟨w', r'⟩, hb, he⟩ := ok_of_bind hc
      cases he
      cases r' with
      | error reason => trivial
      | ok tx =>
        exact (bestFit_of_noReorgedReady h.consistent.worker hg.2 hb).2.2
    | _ => trivial

lemma Guarded.resumesClear (h : Guarded es m a) : m.ResumesClear a := by
  cases a with
  | start tx => trivial
  | resume state tx => exact h.1
  | call c => trivial

lemma Guarding.reorder (h : Guarding G es m) {pool : GoMap Address AddrQueue}
    (hr : Reorders m.worker.pool pool) :
    Guarding G es ⟨{ m.worker with pool := pool }, m.waiting⟩ :=
  ⟨consistent_reorder h.consistent hr, h.guards⟩

lemma Run.guarding (hG : Identifies G) {limits : BatchConstraintsCfg}
    (hr : Run G validIP limits Guarded es m) : Guarding G es m ∧ Protected es := by
  induction hr with
  | nil => exact ⟨⟨consistent_new limits, fun p hp => by cases hp⟩, trivial⟩
  | reorder _ hrr ih => exact ⟨ih.1.reorder hrr, ih.2⟩
  | step _ hn hg hs ih =>
    obtain ⟨hi, hpr⟩ := ih
    have hd := step_does hs
    refine ⟨⟨?_, hd.guards hG hi hn hg⟩, hd.protects hG hi hg, hd.fitting hi hg, hpr⟩
    exact hd.consistent hG hi.consistent hn hg.resumesClear

/-- If the actions meet the conditions, the transactions in process are protected and the returned
ones fit. -/
theorem protected_of_guarded {geth : GoEthereum} {signer : Signer}
    {txOf : Hash → LegacyTx} {validIP : String → Bool}
    {constraints : BatchConstraintsCfg} {es : List Event} {m : SharedWorker}
    (hrun : Run (TxTracker.Genuine geth signer txOf) validIP constraints Guarded es m) :
    Protected es :=
  (Run.guarding (identifies_genuine geth signer txOf) hrun).2

/-! ## Histories without protection -/

/-- A transaction, and another one of its sender and nonce with a higher gas
price. -/
def heldTx : TxTracker := plainTx 1 0 1 0

@[inherit_doc heldTx]
def rivalTx : TxTracker := plainTx 2 0 2 0

def rivalTxOf (h : Hash) : LegacyTx :=
  if h = plainHash 1 then plainLegacyTx 1 0 1 0 else plainLegacyTx 2 0 2 0

lemma genuine_rivalTx (tx : TxTracker) (h : tx = heldTx ∨ tx = rivalTx) :
    tx.Genuine .reference plainSigner rivalTxOf := by
  rcases h with rfl | rfl
  · exact ⟨zeroCounters, zeroCounters, "", 1, 0, by decide +kernel⟩
  · exact ⟨zeroCounters, zeroCounters, "", 2, 0, by decide +kernel⟩

/-- A call of `GetBestFittingTx` with the given bytes, one goroutine and no
counters. -/
def bestCall (bytes : UInt64) : Call :=
  .getBestFittingTx ⟨zeroCounters, bytes⟩ zeroCounters 1 [0, 0]

def moveCall : Call := .moveTxPendingToStore heldTx.hash heldTx.fromAddr

def updateCall : Call :=
  .updateAfterSingleSuccessfulTxExecution heldTx.fromAddr
    (AList.insert heldTx.fromAddr ⟨some 1, some 10⟩ ∅)

def restoreCall : Call := .restoreTxsPendingToStore ⟨id, fun _ => Perm.refl _⟩ fun _ => plainState

def expireCall : Call := .expireTransactions 0 fun _ => 1

/-- The transaction is processed, the block reorganised, and it is returned again with no bytes
left; then the other one arrives. -/
def reorgActions : List Action :=
  [.start heldTx, .resume plainState heldTx, .call (bestCall 100),
    .call moveCall, .call updateCall, .call restoreCall, .call (bestCall 0),
    .start rivalTx]

def reorgEvents : List Event :=
  [.addReturned rivalTx ⟨some heldTx, none⟩, .called (bestCall 0) (.fitting (.ok heldTx)),
    .called restoreCall (.restored [] []),
    .called updateCall (.txs []),
    .called moveCall .done,
    .called (bestCall 100) (.fitting (.ok heldTx)),
    .addResumed heldTx ⟨none, none⟩,
    .addStarted heldTx]

/-- The transaction expires while it is in process. -/
def expiryActions : List Action :=
  [.start heldTx, .resume plainState heldTx, .call (bestCall 100), .call expireCall]

def expiryEvents : List Event :=
  [.called expireCall (.txs [heldTx]), .called (bestCall 100) (.fitting (.ok heldTx)),
    .addResumed heldTx ⟨none, none⟩,
    .addStarted heldTx]

/-- After the reorg the transaction is returned although it does not fit, the other one replaces it,
and one in process expires. -/
theorem reorgEvents_not_protected :
    (∃ m, Run (TxTracker.Genuine .reference plainSigner rivalTxOf)
    (fun _ => true) zeroConstraints AnyAction reorgEvents m) ∧
    ¬Protected reorgEvents ∧
    ¬Fitting (.called (bestCall 0) (.fitting (.ok heldTx))) ∧
    (∃ m, Run (TxTracker.Genuine .reference plainSigner rivalTxOf)
    (fun _ => true) zeroConstraints AnyAction expiryEvents m) ∧
    ¬Protected expiryEvents := by
  have hr : ∃ m, reorgActions.foldlM (stepAfter fun _ => true)
      (new zeroConstraints, []) = .ok (m, reorgEvents) := ⟨_, rfl⟩
  have hep : ∃ m, expiryActions.foldlM (stepAfter fun _ => true)
      (new zeroConstraints, []) = .ok (m, expiryEvents) := ⟨_, rfl⟩
  refine ⟨?_, ?_, ?_, ?_, ?_⟩
  · obtain ⟨m, hr⟩ := hr
    refine ⟨m, Run.actions .nil (fun tx htx => genuine_rivalTx tx ?_) hr⟩
    simpa [reorgActions] using htx
  · intro h
    exact (h.1 ⟨heldTx, false⟩ mem_cons_self).2 heldTx rfl rfl
  · intro h
    have hf : fitsIn ⟨zeroCounters, 0⟩ zeroCounters heldTx = true := h
    exact absurd hf (by decide)
  · obtain ⟨m, hep⟩ := hep
    refine ⟨m, Run.actions .nil (fun tx htx => genuine_rivalTx tx (.inl ?_)) hep⟩
    simpa [expiryActions] using htx
  · intro h
    exact h.1 ⟨heldTx, false⟩ mem_cons_self heldTx mem_cons_self rfl

def stateAfter (actions : List Action) : SharedWorker :=
  match actions.foldlM (stepAfter fun _ => true) (new zeroConstraints, []) with
  | .ok s => s.1
  | _ => new zeroConstraints

/-- The other transaction arrives while the first one is in process. -/
def rejectedActions : List Action :=
  [.start heldTx, .resume plainState heldTx, .call (bestCall 100), .start rivalTx]

def rejectedEvents : List Event :=
  [.addReturned rivalTx ⟨none, some .errDuplicatedNonce⟩,
    .called (bestCall 100) (.fitting (.ok heldTx)),
    .addResumed heldTx ⟨none, none⟩,
    .addStarted heldTx]

/-- The history meets the conditions, and the other transaction is rejected. -/
theorem protected_of_guarded_rejectedEvents : Run
    (TxTracker.Genuine .reference plainSigner rivalTxOf) (fun _ => true) zeroConstraints Guarded
    rejectedEvents (stateAfter rejectedActions) ∧ Protected rejectedEvents := by
  have hs : (new zeroConstraints).step (fun _ => true) (.start heldTx) =
      .ok (stateAfter (rejectedActions.take 1), .addStarted heldTx) := rfl
  have hrs : (stateAfter (rejectedActions.take 1)).step (fun _ => true)
      (.resume plainState heldTx) =
      .ok (stateAfter (rejectedActions.take 2), .addResumed heldTx ⟨none, none⟩) := rfl
  have hb : (stateAfter (rejectedActions.take 2)).step (fun _ => true)
      (.call (bestCall 100)) = .ok (stateAfter (rejectedActions.take 3),
      .called (bestCall 100) (.fitting (.ok heldTx))) := rfl
  have hrv : (stateAfter (rejectedActions.take 3)).step (fun _ => true)
      (.start rivalTx) = .ok (stateAfter rejectedActions,
      .addReturned rivalTx ⟨none, some .errDuplicatedNonce⟩) := rfl
  have hrn : Run (TxTracker.Genuine .reference plainSigner rivalTxOf)
      (fun _ => true) zeroConstraints Guarded rejectedEvents
      (stateAfter rejectedActions) := by
    refine .step (.step (.step (.step .nil ?_ ?_ hs) ?_ ?_ hrs) ?_ ?_ hb) ?_ ?_ hrv
    · intro tx htx
      exact genuine_rivalTx tx (.inl (Action.start.inj htx).symm)
    · trivial
    · intro tx htx
      cases htx
    · exact ⟨rfl, fun p hp => by cases hp⟩
    · intro tx htx
      cases htx
    · exact ⟨rfl, fun rt hm => by cases hm⟩
    · intro tx htx
      exact genuine_rivalTx tx (.inr (Action.start.inj htx).symm)
    · trivial
  exact ⟨hrn, protected_of_guarded hrn⟩

end SharedWorker

end EthdaNode.Sequencer
