import EthdaNode.Sequencer.WorkerRuns

/-!
# Histories of a worker under concurrent calls

The calls of a worker hold its lock, except `AddTxTracker`, which gives it back
between its two parts. A `SharedWorker` is a worker together with the calls that
are between the parts; its actions are the locked parts and the other calls, in
any order. A history is the list of what has happened, the last event first.
-/

namespace EthdaNode.Sequencer

open Go Go.Outcome State List Worker

/-- A worker and the transactions of the `AddTxTracker` calls that have given the
lock back. -/
structure SharedWorker where
  worker : Worker
  waiting : List TxTracker

namespace SharedWorker

/-- What may happen next: the first or the second part of an `AddTxTracker`, or
another call. -/
inductive Action where
  | start (tx : TxTracker)
  | resume (state : StateInterface) (tx : TxTracker)
  | call (c : Call)

/-- An `AddTxTracker` has given the lock back, returned from its first part, failed in between or
returned from its second part, or another call has returned. -/
inductive Event where
  | addStarted (tx : TxTracker)
  | addReturned (tx : TxTracker) (r : AddResult)
  | addFailed (tx : TxTracker) (reason : WorkerError)
  | addResumed (tx : TxTracker) (r : AddResult)
  | called (c : Call) (r : Result)

def callWrite (w : Worker) : Call → TxTracker → TxTracker
  | .updateTxZKCounters txHash addr used reserved => w.countersWrite txHash addr used reserved
  | _ => id

/-- The second part of an `AddTxTracker`, or its end if the state does not
answer. -/
def resumeWith (m : SharedWorker) (tx : TxTracker) :
    Except WorkerError (UInt64 × ℤ) → Outcome WorkerError (SharedWorker × Event)
  | .error reason => .ok (⟨m.worker, m.waiting.erase tx⟩, .addFailed tx reason)
  | .ok answer => do
      let r ← m.worker.addTxTrackerResume tx answer.1 answer.2
      .ok (⟨r.1, m.waiting.erase tx⟩, .addResumed tx r.2)

/-- The event of the first part of an `AddTxTracker` and the calls that wait
after it. -/
def startEvent (m : SharedWorker) (tx : TxTracker) (w : Worker) :
    Option AddResult → SharedWorker × Event
  | some r => (⟨w, m.waiting⟩, .addReturned tx r)
  | none => (⟨w, tx :: m.waiting⟩, .addStarted tx)

def step (validIP : String → Bool) (m : SharedWorker) :
    Action → Outcome WorkerError (SharedWorker × Event)
  | .start tx => do
      let r ← m.worker.addTxTrackerStart validIP tx
      .ok (m.startEvent tx r.1 r.2)
  | .resume state tx =>
    if tx ∈ m.waiting then m.resumeWith tx (state.nonceBalance tx.fromAddr)
    else .hang
  | .call c => do
      let r ← m.worker.call validIP c
      .ok (⟨r.1, m.waiting.map (callWrite m.worker c)⟩, .called c r.2)

def new (constraints : BatchConstraintsCfg) : SharedWorker := ⟨newWorker constraints, []⟩

/-- The histories of a worker with the states they lead to, under the actions that are allowed
there. -/
inductive Run (G : TxTracker → Prop) (validIP : String → Bool) (constraints : BatchConstraintsCfg)
    (allowed : List Event → SharedWorker → Action → Prop) :
    List Event → SharedWorker → Prop where
  | nil : Run G validIP constraints allowed [] (new constraints)
  | reorder {es : List Event} {m : SharedWorker} {pool : GoMap Address AddrQueue}
      (hrun : Run G validIP constraints allowed es m)
      (h : Reorders m.worker.pool pool) :
      Run G validIP constraints allowed es ⟨{ m.worker with pool := pool }, m.waiting⟩
  | step {es : List Event} {m m' : SharedWorker} {a : Action} {e : Event}
      (hrun : Run G validIP constraints allowed es m)
      (hgen : ∀ tx, a = .start tx → G tx) (hallow : allowed es m a)
      (h : m.step validIP a = .ok (m', e)) :
      Run G validIP constraints allowed (e :: es) m'

def AnyAction (_ : List Event) (_ : SharedWorker) (_ : Action) : Prop := True

variable {G : TxTracker → Prop} {validIP : String → Bool}

inductive Does (validIP : String → Bool) (m : SharedWorker) :
    Action → SharedWorker → Event → Prop where
  | wait {tx : TxTracker} (hlook : m.worker.pool.lookup tx.fromAddr = none) :
      Does validIP m (.start tx) ⟨m.worker, tx :: m.waiting⟩ (.addStarted tx)
  | start {tx : TxTracker} {w : Worker} {r : AddResult}
      (h : m.worker.addTxTrackerStart validIP tx = .ok (w, some r)) :
      Does validIP m (.start tx) ⟨w, m.waiting⟩ (.addReturned tx r)
  | fail {state : StateInterface} {tx : TxTracker} {reason : WorkerError} (hmem : tx ∈ m.waiting) :
      Does validIP m (.resume state tx) ⟨m.worker, m.waiting.erase tx⟩ (.addFailed tx reason)
  | resume {state : StateInterface} {tx : TxTracker} {nonce : UInt64} {balance : ℤ}
      {w : Worker} {r : AddResult} (hmem : tx ∈ m.waiting)
      (h : m.worker.addTxTrackerResume tx nonce balance = .ok (w, r)) :
      Does validIP m (.resume state tx) ⟨w, m.waiting.erase tx⟩ (.addResumed tx r)
  | call {c : Call} {w : Worker} {r : Result} (h : m.worker.call validIP c = .ok (w, r)) :
      Does validIP m (.call c) ⟨w, m.waiting.map (callWrite m.worker c)⟩ (.called c r)

variable {m' m : SharedWorker}

lemma step_does {a : Action} {e : Event} (h : m.step validIP a = .ok (m', e)) :
    Does validIP m a m' e := by
  cases a with
  | start tx =>
    obtain ⟨⟨w, r⟩, hsr, he⟩ := ok_of_bind h
    cases r with
    | some r =>
      cases he
      exact .start hsr
    | none =>
      obtain ⟨rfl, _, hl⟩ := trackerStart_eq_none hsr
      cases he
      exact .wait hl
  | resume state tx =>
    rw [step] at h
    split at h
    · next hm =>
      cases hs : state.nonceBalance tx.fromAddr with
      | error reason =>
        rw [hs] at h
        cases h
        exact .fail hm
      | ok ans =>
        rw [hs] at h
        obtain ⟨⟨w, r⟩, hr, he⟩ := ok_of_bind h
        cases he
        exact .resume hm hr
    · cases h
  | call c =>
    obtain ⟨⟨w, r⟩, hc, he⟩ := ok_of_bind h
    cases he
    exact .call hc

/-! ## The invariant -/

structure Consistent (G : TxTracker → Prop) (m : SharedWorker) : Prop where
  worker : m.worker.Consistent G
  waiting : ∀ t ∈ m.waiting, G t

lemma consistent_new (limits : BatchConstraintsCfg) : (new limits).Consistent G where
  worker := Worker.consistent_new limits
  waiting t ht := by cases ht

lemma changes_callWrite (w : Worker) (c : Call) : ChangesCounters (callWrite w c) := by
  cases c with
  | updateTxZKCounters th addr used reserved =>
    exact changes_counters w th addr used reserved
  | _ => exact fun t => .inl rfl

/-- The second part of an `AddTxTracker` does no harm: there is no ready transaction of the sender
that it would lose. -/
def ResumesClear (m : SharedWorker) : Action → Prop
  | .resume _ tx => m.worker.readyOf tx.fromAddr = none
  | _ => True

lemma Does.consistent (hG : Identifies G) {a : Action} {e : Event} (hd : Does validIP m a m' e)
    (h : m.Consistent G) (hg : ∀ tx, a = .start tx → G tx) (hc : m.ResumesClear a) :
    m'.Consistent G := by
  cases hd with
  | wait hl =>
    refine ⟨h.worker, ?_⟩
    intro t ht
    rcases mem_cons.mp ht with rfl | ht
    · exact hg t rfl
    · exact h.waiting t ht
  | start hst =>
    exact ⟨((trackerStart_keepsTo hG validIP h.worker (hg _ rfl)).of_eq hst).1, h.waiting⟩
  | fail hm => exact ⟨h.worker, fun t ht => h.waiting t (mem_of_mem_erase ht)⟩
  | resume hm hr =>
    exact ⟨((trackerResume_keepsTo hG h.worker (h.waiting _ hm) hc
      _ _).of_eq hr).1, fun t ht => h.waiting t (mem_of_mem_erase ht)⟩
  | call ha =>
    refine ⟨(call_keeps hG h.worker ha).1, ?_⟩
    intro t ht
    obtain ⟨s, hs, rfl⟩ := mem_map.mp ht
    exact (changes_callWrite m.worker _).genuine hG (h.waiting s hs)

lemma consistent_reorder (h : m.Consistent G) {pool : GoMap Address AddrQueue}
    (hr : Reorders m.worker.pool pool) :
    Consistent G ⟨{ m.worker with pool := pool }, m.waiting⟩ :=
  ⟨Worker.consistent_reorder h.worker hr, h.waiting⟩

def stepAfter (validIP : String → Bool) (s : SharedWorker × List Event)
    (a : Action) : Outcome WorkerError (SharedWorker × List Event) := do
  let r ← s.1.step validIP a
  .ok (r.1, r.2 :: s.2)

lemma Run.actions {limits : BatchConstraintsCfg} {actions : List Action} {es es' : List Event}
    (hr : Run G validIP limits AnyAction es m) (hg : ∀ tx, Action.start tx ∈ actions → G tx)
    (h : actions.foldlM (stepAfter validIP) (m, es) = .ok (m', es')) :
    Run G validIP limits AnyAction es' m' := by
  induction actions generalizing m es with
  | nil =>
    cases h
    exact hr
  | cons a actions ih =>
    rw [foldlM_cons, bind_ok_iff] at h
    obtain ⟨s, hs, h⟩ := h
    obtain ⟨r, ha, he⟩ := ok_of_bind hs
    cases he
    refine ih (hr.step ?_ trivial ha) (fun tx ht => hg tx (mem_cons_of_mem _ ht)) h
    intro tx ht
    exact hg tx (by rw [ht]; exact mem_cons_self)

end SharedWorker

end EthdaNode.Sequencer
