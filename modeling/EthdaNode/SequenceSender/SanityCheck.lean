import EthdaNode.State.Executor

/-!
# The check before sequences are sent

`sanityCheck` compares the last virtual batch with the contract and with the closed batches. The
answers of the database and of the contract, one for each retry, are given.
-/

namespace EthdaNode.SequenceSender

open Go Go.Outcome List State

inductive SyncError where
  | virtualGreaterSequenced | virtualGreaterTrusted
  deriving DecidableEq

inductive Query where
  | fails | noRows | row (batchNum : UInt64)

def getLastVirtualBatchNum : Query → UInt64 × Option StateError
  | .fails => (0, some .storage)
  | .noRows => (0, some .notFound)
  | .row batchNum => (batchNum, none)

/-- The batch is returned as a pointer. -/
def getLastClosedBatch : Query → Option UInt64 × Option StateError
  | .fails => (none, some .storage)
  | .noRows => (none, some .stateNotSynchronized)
  | .row batchNum => (some batchNum, none)

/-- What the calls answer; a call of the contract that fails answers `none`. -/
structure Answers where
  virtualBatch : Query
  closedBatch : Query
  sequenced : Option UInt64
  retries : List (Option UInt64)

/-- The loop over the retries, with the value that it leaves in `lastSCBatchNum`. -/
def retry (lastVirtualBatchNum lastSCBatchNum : UInt64) :
    List (Option UInt64) → Outcome SyncError (Option UInt64)
  | [] => ok (some lastSCBatchNum)
  | none :: _ => ok none
  | some lastSCBatchNum :: rest =>
    if lastVirtualBatchNum = lastSCBatchNum then ok (some lastSCBatchNum)
    else if rest = [] then err .virtualGreaterSequenced
    else retry lastVirtualBatchNum lastSCBatchNum rest

namespace Answers
variable (a : Answers)

def lastVirtual : UInt64 := (getLastVirtualBatchNum a.virtualBatch).1

def lastReading : Outcome SyncError (Option UInt64) :=
  match a.sequenced with
  | none => ok none
  | some lastSCBatchNum =>
    if a.lastVirtual > lastSCBatchNum then retry a.lastVirtual lastSCBatchNum a.retries
    else ok (some lastSCBatchNum)

def compare (lastTrustedBatchClosed : Option UInt64) : Outcome SyncError Bool := do
  if (← a.lastReading).isNone then ok false
  else
    match lastTrustedBatchClosed with
    | none => panic
    | some batchNumber =>
      if batchNumber < a.lastVirtual then err .virtualGreaterTrusted else ok true

def sanityCheck : Outcome SyncError Bool :=
  let (_, error) := getLastVirtualBatchNum a.virtualBatch
  if error ≠ none ∧ error ≠ some .notFound then ok false
  else
    let (lastTrustedBatchClosed, error) := getLastClosedBatch a.closedBatch
    if error ≠ none ∧ error ≠ some .notFound then ok false else a.compare lastTrustedBatchClosed

/-- The check never panics, it halts the sender only if every reading was below the last virtual
batch, and it passes only if the last reading and the last closed batch are not below it. -/
structure Checked : Prop where
  returns : a.sanityCheck.Returns
  halts : a.sanityCheck = err .virtualGreaterSequenced →
    ∀ r ∈ a.sequenced :: a.retries, ∃ n < a.lastVirtual, r = some n
  passes : a.sanityCheck = ok true →
    ∃ n m, a.lastReading = ok (some n) ∧ a.lastVirtual ≤ n ∧ a.closedBatch = .row m ∧
      a.lastVirtual ≤ m

end Answers

/-- How the retries end: with a call that fails, with the number of the virtual batch, without any
call, or with the error of a contract that never shows this number. -/
lemma retry_cases (v last : UInt64) (readings : List (Option UInt64)) :
    retry v last readings = ok none ∧ none ∈ readings ∨
    retry v last readings = ok (some v) ∧ some v ∈ readings ∨
    retry v last readings = ok (some last) ∧ readings = [] ∨
    retry v last readings = err .virtualGreaterSequenced ∧ none ∉ readings ∧ some v ∉ readings := by
  fun_induction retry v last readings with
  | case5 _ n rest hne hr ih => grind
  | _ => simp_all

namespace Answers
variable {a : Answers} {m n : UInt64}

lemma sanityCheck_cases :
    a.sanityCheck = ok false ∧ (a.virtualBatch ≠ .fails → ∀ m, a.closedBatch ≠ .row m) ∨
    ∃ m, a.virtualBatch ≠ .fails ∧ a.closedBatch = .row m ∧ a.sanityCheck = a.compare m := by
  obtain ⟨virtual, closed, _, _⟩ := a
  cases virtual with
  | fails => exact .inl ⟨rfl, by simp⟩
  | _ =>
    cases closed with
    | row m => exact .inr ⟨m, by simp, rfl, rfl⟩
    | _ => exact .inl ⟨rfl, by simp⟩

lemma checked_of_false (h : a.sanityCheck = ok false) : a.Checked :=
  ⟨h ▸ returns_ok _, by simp [h], by simp [h]⟩

lemma checked_of_reading (hm : a.closedBatch = .row m) (heq : a.sanityCheck = a.compare m)
    (hr : a.lastReading = ok (some n)) (hn : a.lastVirtual ≤ n) : a.Checked := by
  rw [compare, hr, ok_bind] at heq
  by_cases hlt : m < a.lastVirtual
  · have her : a.sanityCheck = err .virtualGreaterTrusted := heq.trans (by simp [hlt])
    exact ⟨her ▸ returns_err _, by simp [her], by simp [her]⟩
  have ht : a.sanityCheck = ok true := heq.trans (by simp [hlt])
  have hle := UInt64.not_lt.mp hlt
  exact ⟨ht ▸ returns_ok _, by simp [ht], fun _ => ⟨n, m, hr, hn, hm, hle⟩⟩

lemma checked_iff_of_retry (hm : a.closedBatch = .row m) (heq : a.sanityCheck = a.compare m)
    (hn : a.sequenced = some n) (hlt : n < a.lastVirtual) : a.Checked ↔
      (a.retries = [] → m < a.lastVirtual) ∧
      (none ∉ a.retries → some a.lastVirtual ∉ a.retries →
        ∀ r, some r ∈ a.retries → r < a.lastVirtual) := by
  have hread : a.lastReading = retry a.lastVirtual n a.retries := by simp [lastReading, hn, hlt]
  rcases retry_cases a.lastVirtual n a.retries with ⟨h, hr⟩ | ⟨h, hr⟩ | ⟨h, hr⟩ | ⟨h, hnone, hv⟩
  · refine iff_of_true (checked_of_false (by simp [heq, compare, hread, h])) ⟨?_, by grind⟩
    simp [ne_nil_of_mem hr]
  · refine iff_of_true (checked_of_reading hm heq (hread.trans h) (UInt64.le_refl _)) ⟨?_, by grind⟩
    simp [ne_nil_of_mem hr]
  · by_cases hlm : m < a.lastVirtual
    · refine iff_of_true ?_ ⟨fun _ => hlm, by simp [hr]⟩
      have herr : a.sanityCheck = err .virtualGreaterTrusted := by
        simp [heq, compare, hread, h, hlm]
      exact ⟨herr ▸ returns_err _, by simp [herr], by simp [herr]⟩
    refine iff_of_false (fun hc => ?_) (by simp [hr, hlm])
    obtain ⟨k, -, hk, hle, -⟩ := hc.passes (by simp [heq, compare, hread, h, hlm])
    rw [hread, h] at hk
    cases hk
    exact UInt64.not_le.mpr hlt hle
  have herr : a.sanityCheck = err .virtualGreaterSequenced := by simp [heq, compare, hread, h]
  constructor
  · intro hc
    have hall := hc.halts herr
    refine ⟨fun hnil => ?_, fun _ _ r hr => ?_⟩
    · simp [hnil, retry] at h
    obtain ⟨k, hk, hrk⟩ := hall _ (mem_cons_of_mem _ hr)
    cases hrk
    exact hk
  · rintro ⟨-, hall⟩
    refine ⟨herr ▸ returns_err _, fun _ r hr => ?_, by simp [herr]⟩
    rcases mem_cons.mp hr with rfl | hr
    · exact ⟨n, hlt, hn⟩
    · obtain ⟨k, rfl⟩ := Option.ne_none_iff_exists'.mp fun h => hnone (h ▸ hr)
      exact ⟨k, hall hnone hv k hr, rfl⟩

/-- Once the state has answered and the first reading is below the virtual batch, the check is right
exactly if it retries or fails on the closed batch, and the retries do not jump over the virtual
batch. -/
theorem checked_iff : a.Checked ↔ a.virtualBatch ≠ .fails →
    ∀ m n, a.closedBatch = .row m → a.sequenced = some n → n < a.lastVirtual →
      (a.retries = [] → m < a.lastVirtual) ∧
      (none ∉ a.retries → some a.lastVirtual ∉ a.retries →
        ∀ r, some r ∈ a.retries → r < a.lastVirtual) := by
  rcases a.sanityCheck_cases with ⟨heq, hno⟩ | ⟨m, hv, hm, heq⟩
  · exact iff_of_true (checked_of_false heq) fun hv m _ hm => absurd hm (hno hv m)
  rcases hn : a.sequenced with _ | n
  · exact iff_of_true (checked_of_false (by simp [heq, compare, lastReading, hn])) (by simp)
  by_cases hlt : n < a.lastVirtual
  · rw [checked_iff_of_retry hm heq hn hlt]
    simp [hv, hm, hlt]
  refine iff_of_true (checked_of_reading hm heq (by simp [lastReading, hn, hlt])
    (UInt64.not_lt.mp hlt)) ?_
  rintro - m' _ - ⟨⟩ h
  exact absurd h hlt

/-- The contract goes from batch 9 past the virtual batch 10 to 11 between two readings. -/
theorem not_checked_when_passed : ¬Checked ⟨.row 10, .row 12, some 9, [some 11]⟩ := by
  intro h
  obtain ⟨k, hk, hrk⟩ := h.halts (by decide) (some 11) (by decide)
  cases hrk
  exact absurd hk (by decide)

end Answers

end EthdaNode.SequenceSender
