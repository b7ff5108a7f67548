import EthdaNode.Sequencer.Finalizer

/-!
# What the goroutines of the finalizer leave as it is

`Still` is a change of the state that no other goroutine notices, and `SameMain` says
that what the main loop owns is the same: the other goroutines do not change it.
-/

namespace EthdaNode.Sequencer

open Go Go.Code List HeapBatch Within

namespace Finalizer

/-! ## Pointers -/

variable {α : Type}

lemma deref_ok_iff {fault : Fault} {x : Option α} {a : α} : deref fault x = .ok a ↔ x = some a := by
  cases x <;> simp [deref]

variable {e : Fault}

lemma deref_error_iff {fault : Fault} {x : Option α} :
    deref fault x = .error e ↔ x = none ∧ fault = e := by
  cases x <;> simp [deref]

variable {x : Option BatchRef}

lemma batchAt_ok_iff {f : Finalizer} {p : BatchRef × HeapBatch} :
    f.batchAt x = .ok p ↔ x = some p.1 ∧ f.batches[p.1]? = some p.2 := by
  rw [batchAt, except_bind_ok_iff]
  constructor
  · rintro ⟨r, hr, h⟩
    obtain ⟨b, hb, h⟩ := ok_of_bind h
    cases h
    exact ⟨deref_ok_iff.mp hr, deref_ok_iff.mp hb⟩
  · rintro ⟨rfl, hb⟩
    exact ⟨p.1, rfl, except_bind_ok_iff.mpr ⟨p.2, deref_ok_iff.mpr hb, rfl⟩⟩

lemma fault_of_batchAt {f : Finalizer} (h : f.batchAt x = .error e) : e = .nilPointer := by
  have hd : ∀ {α : Type} {x : Option α}, deref .nilPointer x = .error e → e = .nilPointer :=
    fun h => (deref_error_iff.mp h).2.symm
  exact error_of_bind h hd fun _ h => error_of_bind h hd nofun

variable {x : Outcome WorkerError α}

lemma returned_ok_iff {a : α} : returned x = .ok a ↔ x = .ok a := by
  cases x <;> simp [returned]

lemma fault_of_returned (h : returned x = .error e) : e = .worker := by
  cases x <;> simp_all [returned]

end Finalizer

/-! ## Parts of the state -/

variable (b : HeapBatch)

/-- A batch without what is changed when it is filled. -/
def HeapBatch.still : HeapBatch :=
  { b with
    imStateRoot := Finalizer.zeroHash
    countOfTxs := 0
    imRemainingResources := ⟨zeroCounters, 0⟩
    imHighReservedZKCounters := zeroCounters }

/-- A row of the state without what is changed when its batch is closed. -/
def StateBatch.unclosed (row : StateBatch) : StateBatch :=
  { row with wip := false, resources := ⟨zeroCounters, 0⟩ }

/-- The fields of a batch that only the main loop sets. -/
def HeapBatch.mainPart : UInt64 × ℕ × ℕ := (b.batchNumber, b.countOfL2Blocks, b.loadedL2Blocks)

/-- A batch without what is changed when its L2 blocks are processed. -/
def HeapBatch.unprocessed : HeapBatch :=
  { b with
    initialStateRoot := Finalizer.zeroHash
    finalStateRoot := Finalizer.zeroHash
    finalRemainingResources := ⟨zeroCounters, 0⟩
    finalHighReservedZKCounters := zeroCounters }

lemma HeapBatch.mainPart_eq {b b' : HeapBatch} (h : b'.unprocessed = b.unprocessed) :
    b'.mainPart = b.mainPart := by
  have hp : b'.unprocessed.mainPart = b.unprocessed.mainPart := by rw [h]
  exact hp

lemma set_of_getElem? {α : Type} {l : List α} {i : ℕ} {a : α} (ha : l[i]? = some a) :
    l.set i a = l := by
  obtain ⟨hi, rfl⟩ := List.getElem?_eq_some_iff.mp ha
  exact List.set_getElem_self hi

lemma map_set_of_eq {α β : Type} {p : α → β} {l : List α} {i : ℕ} {a a' : α}
    (ha : l[i]? = some a) (hp : p a' = p a) : (l.set i a').map p = l.map p := by
  rw [map_set, hp]
  exact set_of_getElem? (by rw [getElem?_map, ha]; rfl)

structure MainPart where
  batches : List (UInt64 × ℕ × ℕ)
  wipBatch : Option BatchRef
  wipL2Block : Option PendingL2Block
  closing : Option BatchRef
  closings : ℕ
  sent : List Sent
  inProcess : Option Hash
  passedOn : Bool
  reorged : List Hash
  started : Bool

namespace Finalizer

def mainPart (f : Finalizer) : MainPart :=
  ⟨f.batches.map HeapBatch.mainPart, f.wipBatch, f.wipL2Block, f.closing, f.closings,
    f.sent, f.inProcess, f.passedOn, f.reorged, f.started⟩

structure SameMain (f f' : Finalizer) : Prop where
  eq : f'.mainPart = f.mainPart

/-- The state without what changes unnoticed. -/
def still (f : Finalizer) : Finalizer :=
  { f with
    batches := f.batches.map HeapBatch.still
    haltFinalizer := false
    emptyClosed := false }

structure Still (f f' : Finalizer) : Prop where
  eq : f'.still = f.still

lemma mainPart_still (f : Finalizer) : f.still.mainPart = f.mainPart := by
  simp only [mainPart, still, map_map, MainPart.mk.injEq, and_true]
  rfl

variable {f' f : Finalizer}

lemma Still.sameMain (h : Still f f') : SameMain f f' := by
  refine ⟨?_⟩
  rw [← mainPart_still f, ← mainPart_still f', h.eq]

variable {r : BatchRef} {b b' : HeapBatch}

lemma still_setBatch (hb : f.batches[r]? = some b) (h : b'.still = b.still) :
    Still f (f.setBatch r b') := by
  refine ⟨?_⟩
  simp only [still, setBatch, map_set_of_eq hb h]

/-- Any fault but that of `closeWIPL2Block`. -/
def OtherFault (fault : Fault) : Prop := fault ≠ .closeNilL2Block

variable {e : Fault}

lemma other_of_nilPointer (h : e = .nilPointer) : OtherFault e := by
  rw [h]
  exact Fault.noConfusion

lemma other_of_batchAt {x : Option BatchRef} (h : f.batchAt x = .error e) : OtherFault e :=
  other_of_nilPointer (fault_of_batchAt h)

variable {α : Type}

lemma other_of_deref {x : Option α} {fault : Fault} (hf : OtherFault fault)
    (h : deref fault x = .error e) : OtherFault e := by
  rw [← (deref_error_iff.mp h).2]
  exact hf

lemma other_nilPointer : OtherFault .nilPointer := other_of_nilPointer rfl

lemma other_fatal : OtherFault .fatal := Fault.noConfusion

lemma other_of_returned {x : Outcome WorkerError α} (h : returned x = .error e) : OtherFault e := by
  rw [fault_of_returned h]
  exact Fault.noConfusion

lemma propagate_ok (h : f.propagate r b = .ok f') :
    (f.pipBatch = none ∧ f' = { f with pipBatch := some r }) ∨
    ∃ p pip, f.pipBatch = some p ∧ f.batches[p]? = some pip ∧
    ((pip.batchNumber = b.batchNumber ∧ f' = f) ∨ (pip.batchNumber ≠ b.batchNumber ∧
    f' = { f.setBatch r { b with
    initialStateRoot := pip.finalStateRoot
    finalStateRoot := pip.finalStateRoot } with
    pipBatch := some r
    trace := f.trace ++ [.propagated p r pip.finalStateRoot] })) := by
  rw [propagate] at h
  rcases hpp : f.pipBatch with _ | p
  · rw [hpp] at h
    exact .inl ⟨rfl, (Except.ok.inj h).symm⟩
  rw [hpp] at h
  obtain ⟨pip, ha, h⟩ := ok_of_bind h
  obtain ⟨hp, hb⟩ := batchAt_ok_iff.mp ha
  cases hp
  refine .inr ⟨pip.1, pip.2, rfl, hb, ?_⟩
  split_ifs at h with hn
  · exact .inr ⟨hn, (Except.ok.inj h).symm⟩
  · exact .inl ⟨not_not.mp hn, (Except.ok.inj h).symm⟩

lemma fault_of_propagate (h : f.propagate r b = .error e) : e = .nilPointer := by
  rw [propagate] at h
  rcases hp : f.pipBatch with _ | p
  · rw [hp] at h
    cases h
  rw [hp] at h
  refine error_of_bind h fault_of_batchAt fun _ h => ?_
  split_ifs at h

lemma takeFinalResources_cases (b : HeapBatch) (resp : ProcessBatchResponse) (size : UInt64) :
    unprocessed { b with toBatch := (b.takeFinalResources resp size).1 } = b.unprocessed ∧
    (b.takeFinalResources resp size).1.initialStateRoot = b.initialStateRoot ∧
    (b.takeFinalResources resp size).1.finalStateRoot =
    if (b.takeFinalResources resp size).2 then resp.newStateRoot
    else b.finalStateRoot := by
  rw [Batch.takeFinalResources]
  dsimp only
  split_ifs <;> simp_all [unprocessed]

variable {old : Hash} {blk : PendingL2Block} {answer : Option ProcessBatchResponse}

variable {rs : Option PendingL2Block}

lemma takeResp_ok (h : f.takeResponse r blk old answer = .ok (rs, f')) :
    ∃ b b' : HeapBatch, f.batches[r]? = some b ∧ b'.unprocessed = b.unprocessed ∧
    b'.initialStateRoot = b.initialStateRoot ∧
    ((rs = none ∧ b'.finalStateRoot = b.finalStateRoot ∧ f' = { f.setBatch r b' with
    trace := f.trace ++ [.executed r old none] }) ∨
    ∃ res : ProcessBatchResponse, ∃ highReservedZKCounters,
    rs = some { blk with
    batchResponse := some res
    highReservedZKCounters := highReservedZKCounters } ∧
    b'.finalStateRoot = res.newStateRoot ∧
    f' = { f.setBatch r b' with trace := f.trace ++
    [.executed r old (some res.newStateRoot)] }) := by
  obtain ⟨b, ha, h⟩ := ok_of_bind h
  have hb := (batchAt_ok_iff.mp ha).2
  obtain rfl := Option.some.inj (batchAt_ok_iff.mp ha).1
  rcases hc : checkResponse blk answer with _ | res
  · simp only [hc, Except.ok.injEq, Prod.mk.injEq] at h
    refine ⟨b.2, b.2, hb, rfl, rfl, .inl ⟨h.1.symm, rfl, ?_⟩⟩
    rw [← h.2, setBatch, set_of_getElem? hb]
  simp only [hc] at h
  obtain ⟨hs, hi, hr⟩ := takeFinalResources_cases b.2 res blk.batchL2DataSize
  generalize b.2.toBatch.takeFinalResources res blk.batchL2DataSize = taken at h hs hi hr
  refine ⟨b.2, { b.2 with toBatch := taken.1 }, hb, hs, hi, ?_⟩
  split_ifs at h with ht
  · cases h
    exact .inr ⟨res, _, rfl, hr.trans (if_pos ht), rfl⟩
  · cases h
    exact .inl ⟨rfl, hr.trans (if_neg ht), rfl⟩

lemma fault_of_takeResp (h : f.takeResponse r blk old answer = .error e) : e = .nilPointer := by
  refine error_of_bind h fault_of_batchAt fun _ h => ?_
  cases hc : checkResponse blk answer with
  | none =>
    simp only [hc] at h
    cases h
  | some resp =>
    simp only [hc] at h
    split_ifs at h

lemma still_takeResources (b : HeapBatch) (used reserved : ZKCounters) (bytes : UInt64) :
    HeapBatch.still { b with toBatch := (b.takeResources used reserved bytes).1 } = b.still := by
  rw [Batch.takeResources]
  dsimp only
  split_ifs
  · rfl
  · rfl

variable {resp : ProcessBatchResponse}

lemma takeNewL2Block_ok {fits : Bool} (h : f.takeNewL2Block resp = .ok (fits, f')) :
    ∃ r b b' blk blk', f.wipBatch = some r ∧ f.batches[r]? = some b ∧
    b'.still = b.still ∧ f.wipL2Block = some blk ∧ blk'.batch = blk.batch ∧
    blk'.transactions = blk.transactions ∧
    f' = { f.setBatch r b' with wipL2Block := some blk' } := by
  obtain ⟨wip, ha, h⟩ := ok_of_bind h
  obtain ⟨blk, hblk, h⟩ := ok_of_bind h
  obtain ⟨hw, hb⟩ := batchAt_ok_iff.mp ha
  have hs := still_takeResources { wip.2 with imStateRoot := resp.newStateRoot }
    resp.usedZkCounters.onNew resp.reservedZkCounters.onNew
    changeL2BlockSize
  refine ⟨wip.1, wip.2, _, blk, _, hw, hb, hs, deref_ok_iff.mp hblk, ?_, ?_, (ok_pair_inj h).2.symm⟩
  · rfl
  · rfl

lemma other_of_takeNewL2Block (h : f.takeNewL2Block resp = .error e) : OtherFault e := by
  exact error_of_bind h other_of_batchAt fun _ h =>
    error_of_bind h (other_of_deref other_nilPointer) nofun

/-! ## Code that stays still -/

/-- The code does nothing that another goroutine notices. -/
abbrev Stays {α : Type} (code : Run α) : Prop := code.Within Still OtherFault

variable {g : Finalizer → Except Fault α}

lemma stays_look (h : ∀ f fault, g f = .error fault → OtherFault fault) : Stays (Code.look g) :=
  within_look (fun _ => ⟨rfl⟩) h

lemma stays_lookBatch (x : Finalizer → Option BatchRef) :
    Stays (Code.look fun f => f.batchAt (x f)) :=
  stays_look fun _ _ => other_of_batchAt

lemma stays_lookField (x : Finalizer → α) : Stays (Code.look fun f => .ok (x f)) := by
  refine stays_look fun f fault h => ?_
  cases h

lemma stays_deref {fault : Fault} (hf : OtherFault fault) (x : Finalizer → Option α) :
    Stays (Code.look fun f => deref fault (x f)) :=
  stays_look fun _ _ => other_of_deref hf

lemma stays_await (ready : Finalizer → Bool) : Stays (Code.await ready) :=
  within_await (fun _ => ⟨rfl⟩) ready

lemma stays_halt : Stays (halt : Run α) := (within_modify fun _ => ⟨rfl⟩).bind fun _ => trivial

lemma stays_emptyClosed : Stays (.modify fun f => { f with emptyClosed := true }) :=
  within_modify fun _ => ⟨rfl⟩

lemma stays_fatal : Stays (.exit .fatal : Run Unit) := other_fatal

lemma stays_waitL2Blocks : Stays waitPendingL2Blocks := (stays_await _).bind fun _ => stays_await _

lemma stays_syncStateRoot : Stays syncStateRoot := by
  refine stays_waitL2Blocks.bind fun _ => ?_
  refine bind (within_action (fun f fault h => ?_) fun f a f' h => ?_)
    fun syn => within_when stays_halt
  · refine error_of_bind h other_of_batchAt fun _ h => ?_
    refine error_of_bind h other_of_batchAt fun _ h => ?_
    split_ifs at h
  obtain ⟨wip, hw, h⟩ := ok_of_bind h
  obtain ⟨sip, -, h⟩ := ok_of_bind h
  split_ifs at h
  · cases h
    exact ⟨rfl⟩
  · cases h
    exact still_setBatch (batchAt_ok_iff.mp hw).2 rfl

variable {R : Finalizer → Finalizer → Prop}

lemma within_workerWhen {ready : Finalizer → Bool}
    {g : Worker → Outcome WorkerError (Worker × α)} {record : α → Finalizer → Finalizer}
    (h : ∀ f w a, R f (record a { f with worker := w })) :
    (callWorkerWhen ready g record).Within R OtherFault := by
  refine within_action (fun f fault hl => ?_) fun f a f' hf => ?_
  · exact error_of_bind hl other_of_returned nofun
  · obtain ⟨r, -, -, rfl⟩ := bind_pair_inj hf
    exact h f r.1 r.2

section
variable {R : Finalizer → Finalizer → Prop} {E : Fault → Prop}

lemma within_processForcedBatch (ha : ∀ tx : Hash × State.Address,
    (callWorker fun w => .ok (w.addForcedTx tx.1 tx.2, ())).Within R E)
    (hd : ∀ tx : Hash × State.Address,
    (callWorker fun w => .ok (w.deleteForcedTx tx.1 tx.2, ())).Within R E)
    (hs : ∀ f state, R f { f with state }) (number : UInt64) :
    (processForcedBatch number).Within R E := by
  refine (within_ask _).bind fun answer => ?_
  refine (within_forEach ha _).bind fun _ => (within_forEach hd _).bind fun _ => ?_
  cases answer.newStateRoot with
  | none => trivial
  | some root => exact (within_modify fun f => hs f _).bind fun _ => trivial

lemma within_forcedBatchesLoop (h : ∀ number, (processForcedBatch number).Within R E)
    (forced : List UInt64) (next number : UInt64) (root : Hash) :
    (forcedBatchesLoop forced next number root).Within R E := by
  induction forced generalizing next number root with
  | nil => trivial
  | cons fb rest ih =>
    rw [forcedBatchesLoop]
    split_ifs
    · exact ih next number root
    refine bind ?_ fun found => ?_
    · rw [findForcedBatch]
      split_ifs
      · exact within_ask _
      · trivial
    cases found with
    | false => trivial
    | true =>
      refine (h number).bind fun rs => ?_
      cases rs with
      | none => trivial
      | some rs => exact ih _ rs.1 rs.2

lemma within_processForced (hr : ∀ f, R f f) (h : ∀ number, (processForcedBatch number).Within R E)
    (number : UInt64) (root : Hash) : (processNextForcedBatches number root).Within R E := by
  refine (within_ask _).bind fun lf => ?_
  rcases lf with _ | lf
  · trivial
  refine bind (within_look hr fun f fault hf => ?_) fun fb => ?_
  · cases hf
  · exact within_forcedBatchesLoop h fb _ number root

lemma within_lastBatch
    (hr : ∀ f nextForcedBatches nextForcedBatchesMux nextForcedBatchDeadline, R f { f with
    nextForcedBatches, nextForcedBatchesMux, nextForcedBatchDeadline })
    (h : ∀ number, (processForcedBatch number).Within R E) (forced : Bool) (number : UInt64)
    (root : Hash) : (lastBatch forced number root).Within R E := by
  rcases forced with _ | _
  · trivial
  refine bind (within_action (fun _ _ hl => ?_) fun f a f' hf => ?_) fun _ => ?_
  · cases hl
  · cases hf
    exact hr f _ _ _
  have hrf : ∀ f, R f f := fun f => hr f _ _ _
  refine (within_processForced hrf h number root).bind fun rs => ?_
  exact (within_modify fun f => hr f _ _ _).bind fun _ => trivial
end

/-! ## Code of the main loop that fills the L2 block or closes the sip batch -/

/-- The state without the worker and what the L2 block in progress is filled with. -/
def unfilled (f : Finalizer) : Finalizer :=
  { f.still with
    worker := newWorker ⟨0, 0, 0, 0, 0, 0, 0, 0, 0⟩
    inProcess := none
    wipL2Block := f.still.wipL2Block.map fun block => { block with transactions := [] } }

/-- Only the worker and the L2 block in progress are changed. -/
structure SameUnfilled (f f' : Finalizer) : Prop where
  eq : f'.unfilled = f.unfilled

lemma Still.sameUnfilled (h : Still f f') : SameUnfilled f f' := by
  refine ⟨?_⟩
  rw [unfilled, unfilled, h.eq]

/-- The state without what `finalizeSIPBatch` changes. -/
def unclosed (f : Finalizer) : Finalizer :=
  { f.still with state := f.still.state.map StateBatch.unclosed, sipBatch := none }

/-- Only the sip batch is closed. -/
structure SameUnclosed (f f' : Finalizer) : Prop where
  eq : f'.unclosed = f.unclosed
  sipBatch : f'.sipBatch = f.sipBatch ∨ f'.sipBatch = none

lemma Still.sameUnclosed (h : Still f f') : SameUnclosed f f' := by
  refine ⟨?_, .inl ?_⟩
  · rw [unclosed, unclosed, h.eq]
  · have hs : f'.still.sipBatch = f.still.sipBatch := by rw [h.eq]
    exact hs

lemma sameUnclosed_closeInState (f : Finalizer) (cfg : FinalizerCfg) (sip : HeapBatch) :
    SameUnclosed f { f with
    state := closeWIPBatchInState cfg f.state sip
    sipBatch := none } := by
  refine ⟨?_, .inr rfl⟩
  have hr : (closeWIPBatchInState cfg f.state sip).map StateBatch.unclosed =
      f.state.map StateBatch.unclosed := by
    rw [closeWIPBatchInState, updateRow, map_map]
    refine map_congr_left fun row _ => ?_
    rw [Function.comp_apply]
    split_ifs
    · rfl
    · rfl
  simp only [unclosed, still, hr]

lemma Stays.unfilled {code : Run α} (h : Stays code) : code.Within SameUnfilled OtherFault :=
  h.mono (fun _ _ => Still.sameUnfilled) fun _ hf => hf

lemma Stays.unclosed {code : Run α} (h : Stays code) : code.Within SameUnclosed OtherFault :=
  h.mono (fun _ _ => Still.sameUnclosed) fun _ hf => hf

variable (cfg : FinalizerCfg)

lemma unclosed_closeSIPBatch (ans : SIPAnswer) :
    (closeSIPBatch cfg ans).Within SameUnclosed OtherFault := by
  refine (stays_lookField _).unclosed.bind fun sb => ?_
  rcases sb with _ | r
  · exact stays_halt.unclosed
  refine (stays_lookBatch _).unclosed.bind fun sip => ?_
  split_ifs
  · exact stays_halt.unclosed
  cases ans with
  | beginFails => trivial
  | closeFails => trivial
  | commitFails => exact other_nilPointer
  | committed =>
    refine bind (within_modify fun f => ?_) fun _ => trivial
    exact sameUnclosed_closeInState f cfg sip.2

lemma unclosed_finalizeSIP : (finalizeSIPBatch cfg).Within SameUnclosed OtherFault := by
  refine (within_ask _).bind fun answer => ?_
  cases answer with
  | beginFails => exact (stays_lookBatch _).unclosed.bind fun _ => trivial
  | closeFails => exact unclosed_closeSIPBatch cfg .closeFails
  | commitFails => exact unclosed_closeSIPBatch cfg .commitFails
  | committed => exact unclosed_closeSIPBatch cfg .committed

lemma unclosed_closePrev : (closePreviousBatch cfg).Within SameUnclosed OtherFault := by
  refine bind (stays_look fun f fault h => ?_).unclosed fun closed => ?_
  · cases hs : f.sipBatch with
    | none =>
      rw [hs] at h
      cases h
    | some r =>
      rw [hs] at h
      exact error_of_bind h other_of_batchAt fun _ h =>
        error_of_bind h other_of_batchAt nofun
  · cases closed with
    | false => trivial
    | true => exact unclosed_finalizeSIP cfg

lemma unclosed_haltOnBatch : (haltOnBatchNumber cfg).Within SameUnclosed OtherFault := by
  refine stays_waitL2Blocks.unclosed.bind fun _ => ?_
  refine (unclosed_finalizeSIP cfg).bind fun closed => ?_
  exact (within_when stays_fatal.unclosed).bind fun _ => stays_halt.unclosed

lemma unfilled_callWorker (g : Worker → Outcome WorkerError (Worker × α)) :
    (callWorker g).Within SameUnfilled OtherFault := by
  rw [callWorker, callWorkerAnd]
  exact within_workerWhen fun _ _ _ => ⟨rfl⟩

lemma unfilled_bestFit : (getBestFittingTx).Within SameUnfilled OtherFault := by
  refine (within_ask _).bind fun ngr => ?_
  refine (within_ask _).bind fun sc => ?_
  refine (stays_lookBatch _).unfilled.bind fun wip => ?_
  exact within_workerWhen fun _ _ _ => ⟨rfl⟩

lemma unfilled_setBatch (hb : f.batches[r]? = some b) (h : b'.still = b.still) :
    SameUnfilled f (f.setBatch r b') :=
  (still_setBatch hb h).sameUnfilled

variable (tx : TxTracker)

lemma unfilled_acceptTx (res : ExecutedTx) : (acceptTx tx res).Within SameUnfilled OtherFault := by
  refine within_action (fun f fault h => ?_) fun f a f' h => ?_
  · exact error_of_bind h other_of_batchAt fun _ h =>
      error_of_bind h (other_of_deref other_nilPointer) fun _ h =>
      error_of_bind h other_of_returned nofun
  obtain ⟨wip, hw, h⟩ := ok_of_bind h
  obtain ⟨blk, hblk, h⟩ := ok_of_bind h
  obtain ⟨w, -, -, rfl⟩ := bind_pair_inj h
  have hs := map_set_of_eq (batchAt_ok_iff.mp hw).2
    (show HeapBatch.still { wip.2 with countOfTxs := wip.2.countOfTxs + 1 } =
      wip.2.still from rfl)
  refine ⟨?_⟩
  simp only [unfilled, still, setBatch, hs, deref_ok_iff.mp hblk, Option.map_some]
  rfl

lemma unfilled_handleTxResp (res : ExecutedTx) :
    (handleProcessTransactionResponse cfg tx res).Within SameUnfilled OtherFault := by
  refine bind (within_action (fun f fault h => ?_) fun f a f' h => ?_) fun taken => ?_
  · exact error_of_bind h other_of_batchAt nofun
  · obtain ⟨wip, hw, -, rfl⟩ := bind_pair_inj h
    exact unfilled_setBatch (batchAt_ok_iff.mp hw).2 (still_takeResources _ _ _ _)
  split_ifs
  · refine (unfilled_acceptTx tx res).bind fun _ => ?_
    refine (unfilled_callWorker _).bind fun _ => ?_
    refine within_action (fun f fault h => ?_) fun f a f' h => ?_
    · exact error_of_bind h other_of_batchAt nofun
    · obtain ⟨wip, hw, -, rfl⟩ := bind_pair_inj h
      exact unfilled_setBatch (batchAt_ok_iff.mp hw).2 rfl
  · exact unfilled_callWorker _
  · exact unfilled_callWorker _

lemma unfilled_processTx : (processTransaction cfg tx).Within SameUnfilled OtherFault := by
  refine (within_ask _).bind fun answer => ?_
  refine Within.bind ?_ fun _ => within_modify fun _ => ⟨rfl⟩
  cases answer with
  | failed => trivial
  | invalid => exact unfilled_callWorker _
  | notReady nonce balance => exact (unfilled_callWorker _).bind fun _ => trivial
  | executed rs => exact unfilled_handleTxResp cfg tx rs

/-! ## The other goroutines -/

/-- The state without what the other goroutines change, the forced batches apart. -/
def front (f : Finalizer) : Finalizer :=
  { f with
    batches := f.batches.map unprocessed
    pipBatch := none
    sipBatch := none
    l2BlockReorg := false
    lastL2BlockWasReorg := false
    haltFinalizer := false
    pendingL2BlocksToProcess := []
    processing := none
    processBusy := false
    pendingL2BlocksToStore := []
    storing := none
    worker := newWorker ⟨0, 0, 0, 0, 0, 0, 0, 0, 0⟩
    state := []
    discarded := []
    trace := [] }

structure Behind (f f' : Finalizer) : Prop where
  eq : f'.front = f.front

abbrev StaysBehind {α : Type} (code : Run α) : Prop := code.Within Behind OtherFault

lemma behind_look (h : ∀ f fault, g f = .error fault → OtherFault fault) : StaysBehind (.look g) :=
  within_look (fun _ => ⟨rfl⟩) h

lemma behind_deref (x : Finalizer → Option α) :
    StaysBehind (.look fun f => deref .nilPointer (x f)) :=
  behind_look fun _ _ => other_of_deref other_nilPointer

lemma behind_halt : StaysBehind (halt : Run α) :=
  (within_modify fun _ => ⟨rfl⟩).bind fun _ => trivial

lemma behind_fatal : StaysBehind (.exit .fatal : Run Unit) := other_fatal

lemma behind_setBatch {pipBatch : Option BatchRef} {trace : List Event}
    (hb : f.batches[r]? = some b) (h : b'.unprocessed = b.unprocessed) :
    Behind f { f.setBatch r b' with pipBatch, trace } := by
  refine ⟨?_⟩
  simp only [front, setBatch, map_set_of_eq hb h]

lemma behind_propagate (hb : f.batches[r]? = some b) (h : f.propagate r b = .ok f') :
    Behind f f' := by
  rcases propagate_ok h with ⟨-, rfl⟩ | ⟨p, pip, -, -, ⟨-, rfl⟩ | ⟨-, rfl⟩⟩
  · exact ⟨rfl⟩
  · exact ⟨rfl⟩
  · exact behind_setBatch hb rfl

lemma behind_takeResp (h : f.takeResponse r blk old answer = .ok (rs, f')) : Behind f f' := by
  obtain ⟨b, b', hb, hs, -, hf⟩ := takeResp_ok h
  rcases hf with ⟨-, -, rfl⟩ | ⟨_, _, -, -, rfl⟩
  · exact behind_setBatch hb hs
  · exact behind_setBatch hb hs

lemma behind_processL2Block (blk : PendingL2Block) : StaysBehind (processL2Block blk) := by
  refine (behind_deref _).bind fun r => ?_
  refine bind (within_action (fun f fault h => ?_) fun f a f' h => ?_) fun root => ?_
  · exact error_of_bind h other_of_batchAt fun _ h =>
      error_of_bind h (fun h => other_of_nilPointer (fault_of_propagate h)) fun _ h =>
      error_of_bind h other_of_batchAt nofun
  · obtain ⟨b, ha, h⟩ := ok_of_bind h
    obtain ⟨g, hg, h⟩ := ok_of_bind h
    obtain ⟨pip, -, -, rfl⟩ := bind_pair_inj h
    obtain ⟨hr, hb⟩ := batchAt_ok_iff.mp ha
    cases hr
    exact behind_propagate hb hg
  refine (within_ask _).bind fun answer => ?_
  refine bind (within_action (fun f fault h => ?_) fun f a f' h => ?_) fun rs => ?_
  · exact other_of_nilPointer (fault_of_takeResp h)
  · exact behind_takeResp h
  cases rs with
  | none => trivial
  | some blk =>
    refine bind (within_await (fun _ => ⟨rfl⟩) _) fun _ => ?_
    exact (within_modify fun _ => ⟨rfl⟩).bind fun _ => trivial

lemma behind_discardL2Block (blk : PendingL2Block) : StaysBehind (discardL2Block blk) :=
  within_modify fun _ => ⟨rfl⟩

lemma behind_handlePendingL2Block (blk : PendingL2Block) :
    StaysBehind (handlePendingL2Block blk) := by
  refine bind (behind_look fun _ _ h => ?_) fun reorg => ?_
  · cases h
  cases reorg with
  | true => exact behind_discardL2Block blk
  | false =>
    refine (behind_processL2Block blk).bind fun processed => ?_
    cases processed with
    | true => exact within_modify fun _ => ⟨rfl⟩
    | false =>
      refine (within_update fun _ => ⟨rfl⟩).bind fun wr => ?_
      exact (within_when behind_halt).bind fun _ => behind_discardL2Block blk

lemma behind_processL2Blocks : StaysBehind processPendingL2Blocks := by
  refine bind (within_action (fun f fault h => ?_) fun f a f' h => ?_) fun blk => ?_
  · exact error_of_bind h (other_of_deref other_nilPointer) nofun
  · obtain ⟨blk, -, -, rfl⟩ := bind_pair_inj h
    exact ⟨rfl⟩
  · exact (behind_handlePendingL2Block blk).bind fun _ => within_modify fun _ => ⟨rfl⟩

lemma fault_of_startsBatch (h : f.startsBatch b = .error e) : e = .nilPointer := by
  rw [startsBatch] at h
  cases hs : f.sipBatch with
  | none =>
    rw [hs] at h
    cases h
  | some r =>
    rw [hs] at h
    exact error_of_bind h fault_of_batchAt nofun

variable {cfg : FinalizerCfg}

lemma fault_of_commitL2Block (h : f.commitL2Block cfg r blk resp = .error e) : e = .nilPointer := by
  exact error_of_bind h fault_of_batchAt fun _ h => error_of_bind h fault_of_startsBatch nofun

lemma commitL2Block_ok (h : f.commitL2Block cfg r blk resp = .ok f') :
    ∃ state sb, f' = { f with
    state := state
    sipBatch := sb
    storing := some ⟨blk, true, blk.txHashes⟩
    trace := f.trace ++ [.stored resp.newStateRoot blk.txHashes] } := by
  obtain ⟨b, -, h⟩ := ok_of_bind h
  obtain ⟨sta, -, h⟩ := ok_of_bind h
  exact ⟨_, _, (Except.ok.inj h).symm⟩

lemma commitL2Block_of_map {a : Unit} (h : (f.commitL2Block cfg r blk resp).map (fun f => ((), f)) =
    .ok (a, f')) : f.commitL2Block cfg r blk resp = .ok f' := by
  rcases hc : f.commitL2Block cfg r blk resp with e | g
  · rw [hc] at h
    cases h
  rw [hc] at h
  cases h
  rfl

lemma other_of_closesEmpty (h : (do
      let b ← f.batchAt (some r)
      let sta ← f.startsBatch b.2
      match f.sipBatch with
      | none => .ok false
      | some s => do
          let sip ← f.batchAt (some s)
          .ok (sta && sip.2.countOfL2Blocks = 0) : Except Fault Bool) = .error e) :
    OtherFault e := by
  refine error_of_bind h other_of_batchAt fun _ h => error_of_bind h
    (fun h => other_of_nilPointer (fault_of_startsBatch h)) fun _ h => ?_
  cases hs : f.sipBatch with
  | none =>
    rw [hs] at h
    cases h
  | some s =>
    rw [hs] at h
    exact error_of_bind h other_of_batchAt nofun

variable (cfg : FinalizerCfg)

lemma behind_storeL2Block (blk : PendingL2Block) : StaysBehind (storeL2Block cfg blk) := by
  refine (behind_deref _).bind fun r => ?_
  refine (behind_deref _).bind fun resp => ?_
  refine (behind_look fun _ _ => other_of_batchAt).bind fun _ => ?_
  refine (behind_look fun f fault h => other_of_closesEmpty h).bind fun ce => ?_
  refine (within_when behind_halt).bind fun _ => ?_
  refine (within_ask _).bind fun fls => ?_
  refine (within_when behind_fatal).bind fun _ => ?_
  refine bind (within_action (fun f fault h => ?_) fun f a f' h => ?_) fun _ => ?_
  · cases hc : f.commitL2Block cfg r blk resp with
    | error e =>
      rw [hc] at h
      cases h
      exact other_of_nilPointer (fault_of_commitL2Block hc)
    | ok g =>
      rw [hc] at h
      cases h
  · obtain ⟨state, sb, rfl⟩ := commitL2Block_ok (commitL2Block_of_map h)
    exact ⟨rfl⟩
  refine (within_ask _).bind fun fls => ?_
  refine (within_when behind_fatal).bind fun _ => ?_
  refine within_forEach (fun tx => ?_) _
  exact within_workerWhen fun _ _ _ => ⟨rfl⟩

lemma behind_storeL2Blocks : StaysBehind (storePendingL2Blocks cfg) := by
  refine bind (within_action (fun f fault h => ?_) fun f a f' h => ?_) fun blk => ?_
  · exact error_of_bind h (other_of_deref other_nilPointer) nofun
  · obtain ⟨blk, -, -, rfl⟩ := bind_pair_inj h
    exact ⟨rfl⟩
  · exact (behind_storeL2Block cfg blk).bind fun _ => within_modify fun _ => ⟨rfl⟩

lemma within_checkForced {E : Fault → Prop}
    (h : ∀ f nextForcedBatches nextForcedBatchDeadline,
    R f { f with nextForcedBatches, nextForcedBatchDeadline }) :
    checkForcedBatches.Within R E := by
  refine (within_ask _).bind fun forcedBatch => ?_
  refine within_action (fun f fault hf => ?_) fun f a f' hf => ?_
  · cases hf
  · cases hf
    exact h f _ _

lemma within_loadFromPool (h : ∀ f worker, R f { f with worker }) (cfg : FinalizerCfg)
    (G : TxTracker → Prop) :
    (loadFromPool cfg G).Within R OtherFault := by
  refine (within_ask _).bind fun tx => (within_ask _).bind fun state => ?_
  exact (within_workerWhen fun f worker _ => h f worker).bind fun _ => trivial

lemma spares_body (G : TxTracker → Prop) {i : Goroutine}
    (hi : i ≠ .main) : (body cfg G i).Within SameMain OtherFault := by
  have hm : ∀ f : Finalizer, f.front.mainPart = f.mainPart := by
    intro f
    simp only [mainPart, front, map_map]
    rfl
  have hb : ∀ {code : Run Unit}, StaysBehind code → code.Within SameMain OtherFault := by
    refine fun hc => hc.mono (fun f f' hs => ⟨?_⟩) fun _ hf => hf
    rw [← hm f', hs.eq, hm]
  cases i with
  | main => exact absurd rfl hi
  | process => exact hb behind_processL2Blocks
  | store => exact hb (behind_storeL2Blocks cfg)
  | forced => exact within_checkForced fun _ _ _ => ⟨rfl⟩
  | pool => exact within_loadFromPool (fun _ _ => ⟨rfl⟩) cfg G

section
open Outline

variable {κ : Type} {o : Outline Finalizer NewL2BlockArgs Fault Goroutine κ}
  {cfg : FinalizerCfg} {I J : Finalizer → Prop}

variable (o I) in
abbrev MainKeeps {α : Type} (code : Run α) : Prop := ∀ f, I f → o.Wp .main (fun _ f => I f) code f

lemma mainKeeps_checkBatch (hs : ∀ {α : Type} {g : Finalizer → Except Fault α}, Stays (.look g) →
    MainKeeps o I (.look g)) (hb : MainKeeps o I (finalizeWIPBatch cfg)) :
    MainKeeps o I (checkBatch cfg) := by
  intro f h
  refine (hs (stays_lookField _) f h).seq fun halted f h => ?_
  refine (wp_when (Q := fun _ f => I f) (fun _ => ?_) fun _ => h).seq fun _ f h => ?_
  · trivial
  refine wp_ask fun deadline => wp_ask fun md => ?_
  refine (hs (stays_look fun f fault h => ?_) f h).seq fun wip f h => ?_
  · exact error_of_bind h other_of_batchAt nofun
  exact wp_when (fun _ => hb f h) fun _ => h

abbrev deleteStored (tx : BlockTx) : Run Unit := callWorkerAnd
  (fun w => (w.deleteTxPendingToStore tx.hash tx.fromAddr).bind fun w => .ok (w, ()))
  fun _ f => { f with storing := f.storing.map fun s => { s with left := s.left.tail } }

/-- `storeL2Block`: `I` holds until the block is committed, and `J` from then on. -/
lemma wp_storeL2Block {blk : PendingL2Block} {Q : Unit → Finalizer → Prop}
    (hI : ∀ {α : Type} {code : Run α}, Stays code → ∀ f, I f → o.Wp .store (fun _ f => I f) code f)
    (hJ : ∀ {code : Run Unit}, Stays code → ∀ f, J f → o.Wp .store (fun _ f => J f) code f)
    (hc : ∀ r resp f, I f →
    o.Wp .store (fun _ f => J f) (.act fun f => (f.commitL2Block cfg r blk resp).map fun f => ((),
    f)) f) (hd : ∀ f, J f → o.Wp .store Q (Code.forEach deleteStored blk.transactions) f)
    (h : I f) : o.Wp .store Q (storeL2Block cfg blk) f := by
  refine (hI (stays_deref other_nilPointer _) f h).seq fun r f hf => ?_
  refine (hI (stays_deref other_nilPointer _) f hf).seq fun resp f hf => ?_
  refine (hI (stays_lookBatch _) f hf).seq fun _ f hf => ?_
  refine (hI (stays_look fun f fault h => other_of_closesEmpty h) f hf).seq fun ce f hf => ?_
  refine (hI (within_when stays_halt) f hf).seq fun _ f hf => ?_
  refine wp_ask fun fls => ?_
  refine (hI (within_when stays_fatal) f hf).seq fun _ f hf => ?_
  refine (hc r resp f hf).seq fun _ f hf => ?_
  refine wp_ask fun fls => ?_
  exact (hJ (within_when stays_fatal) f hf).seq fun _ f hf => hd f hf

variable (hlook : ∀ f, I f → o.Wp .main (fun reorg f => I f ∧ (reorg = true → J f))
      (.look fun f => .ok f.l2BlockReorg) f)
    (hreorg : ∀ f, J f → o.Wp .main (fun _ f => I f) (processL2BlockReorg cfg) f)
    (hblk : MainKeeps o I finalizeWIPL2Block)

include hlook hreorg hblk

/-- An iteration of the main loop: `J` holds when it has seen a reorg, and `B` tells what is
known of the transaction that it has found. -/
lemma mainKeeps_finalizeBatches {B : Except WorkerError TxTracker → Finalizer → Prop}
    (hs : ∀ {α : Type} {g : Finalizer → Except Fault α}, Stays (.look g) → MainKeeps o I (.look g))
    (hb : ∀ f, I f → o.Wp .main (fun best f => I f ∧ B best f) getBestFittingTx f) (ht : ∀ f, I f →
    B (.error .errNoFittingTransaction) f → o.Wp .main (fun _ f => I f) (finalizeWIPBatch cfg) f)
    (hx : ∀ tx f, I f → B (.ok tx) f → o.Wp .main (fun _ f => I f) (processTransaction cfg tx) f)
    (hc : MainKeeps o I (checkBatch cfg)) : MainKeeps o I (finalizeBatches cfg) := by
  intro f h
  refine (hlook f h).seq fun reorg f h => ?_
  refine (wp_when (fun hn => hreorg f (h.2 hn)) fun _ => h.1).seq fun _ f h => ?_
  refine wp_ask fun tr => ?_
  refine (hs (stays_deref other_nilPointer _) f h).seq fun _ f h => ?_
  refine (wp_when (fun _ => hblk f h) fun _ => h).seq fun _ f h => ?_
  refine (hb f h).seq fun best f h => ?_
  rcases best with e | tx
  · cases e with
    | errNoFittingTransaction => exact ht f h.1 h.2
    | _ =>
      refine (hs (stays_deref other_nilPointer _) f h.1).seq fun _ f h => ?_
      exact hc f h
  · exact (hx tx f h.1 h.2).seq fun _ f h => hc f h

lemma mainKeeps_of_unfilled
    (hk : ∀ {α : Type} {code : Run α}, code.Within SameUnfilled OtherFault → MainKeeps o I code)
    (hb : MainKeeps o I (finalizeWIPBatch cfg)) : MainKeeps o I (finalizeBatches cfg) := by
  refine mainKeeps_finalizeBatches hlook hreorg hblk (B := fun _ _ => True) (fun hc => hk
    hc.unfilled) (fun f h => ?_) (fun f h _ => hb f h) (fun tx f h _ => ?_) ?_
  · exact (hk unfilled_bestFit f h).mono fun _ _ h => ⟨h, trivial⟩
  · exact hk (unfilled_processTx cfg tx) f h
  · exact mainKeeps_checkBatch (fun hc => hk hc.unfilled) hb
end

end Finalizer

end EthdaNode.Sequencer
