import EthdaNode.Sequencer.WorkerConsistency

/-!
# The best fitting transaction

`GetBestFittingTx` looks for a fitting transaction with several goroutines.
Whatever their schedule, the result is that of a search from the front of the
list: the first transaction that fits.
-/

namespace EthdaNode.Sequencer

open Go Go.Outcome State

namespace Worker

variable {w : Worker}

lemma nextReorgedTx_rest {rt : List TxTracker}
    (h : (w.nextReorgedTx rt).1 = none) : (w.nextReorgedTx rt).2 = [] := by
  induction rt with
  | nil => rfl
  | cons reorged rest ih =>
    rw [nextReorgedTx] at h ⊢
    split at h
    · cases h
    next hr =>
    rw [if_neg hr]
    exact ih h

variable {high : ZKCounters} {sc : List ℕ} {remaining : BatchResources}

/-- If no transaction of a reorg is taken, the result is the first transaction of
the list that fits, for every number of goroutines and every schedule that brings
them to their end. -/
lemma bestFit_eq_find {n : ℕ} (hr : (w.nextReorgedTx w.reorgedTxs).1 = none)
    (hs : w.txSortedList.sorted ≠ []) (hn : 0 < n)
    (hfi : ParallelSearch.Finished n (ParallelSearch.run
    (fitsAt w.txSortedList.sorted remaining high) w.txSortedList.sorted.length n
    sc)) :
    w.getBestFittingTx remaining high n sc = .ok
      ({ w with wipTx := w.txSortedList.sorted.find? (fitsIn remaining high), reorgedTxs := [] },
        (w.txSortedList.sorted.find? (fitsIn remaining high)).elim
          (.error .errNoFittingTransaction) .ok) := by
  have hl : ¬w.txSortedList.sorted.length = 0 := by rwa [List.length_eq_zero_iff]
  have hf : ((ParallelSearch.run (fitsAt w.txSortedList.sorted remaining high)
      w.txSortedList.sorted.length n sc).foundAt.bind fun i =>
      w.txSortedList.sorted[i]?) = w.txSortedList.sorted.find? (fitsIn remaining high) :=
    ParallelSearch.run_getElem?_eq hn hfi
  unfold getBestFittingTx
  simp only [hr, nextReorgedTx_rest hr, if_neg hl, if_pos hfi]
  cases hd : (ParallelSearch.run (fitsAt w.txSortedList.sorted remaining high)
      w.txSortedList.sorted.length n sc).foundAt with
  | none =>
    rw [hd, Option.bind_none] at hf
    rw [← hf]
    rfl
  | some i =>
    rw [hd, Option.bind_some] at hf
    have hi := (ParallelSearch.run_found hd).1
    rw [List.getElem?_eq_getElem hi] at hf
    have hid : (index w.txSortedList.sorted i : Outcome WorkerError TxTracker) = .ok
      w.txSortedList.sorted[i] := index_ok_iff.mpr (List.getElem?_eq_getElem hi)
    simp only [hid, ok_bind]
    rw [← hf]
    rfl

/-- A call without transactions of a reorg, whose goroutines move until they stop. -/
structure FitCall where
  worker : Worker
  reorgedTxs : worker.reorgedTxs = []
  remaining : BatchResources
  high : ZKCounters
  goroutines : ℕ
  positive : 0 < goroutines
  schedule : List ℕ
  complete : ∀ k < goroutines, 2 * worker.txSortedList.sorted.length < schedule.count k

variable (c : FitCall)

def FitCall.sorted : List TxTracker := c.worker.txSortedList.sorted

def FitCall.result : Outcome WorkerError (Worker × Except WorkerError TxTracker) :=
  c.worker.getBestFittingTx c.remaining c.high c.goroutines c.schedule

/-- A list with transactions is searched for the first one that fits. -/
theorem FitCall.result_eq_firstFit :
    ∃ w, c.result = .ok (w,
      if c.sorted = [] then .error .errTransactionsListEmpty
      else (c.sorted.find? (fitsIn c.remaining c.high)).elim
        (.error .errNoFittingTransaction) .ok) := by
  have hr : (c.worker.nextReorgedTx c.worker.reorgedTxs).1 = none := by
    rw [c.reorgedTxs]
    rfl
  by_cases hs : c.sorted = []
  · have hl : c.worker.txSortedList.sorted.length = 0 := congrArg List.length hs
    rw [if_pos hs, result]
    unfold getBestFittingTx
    simp only [hr, if_pos hl]
    exact ⟨_, rfl⟩
  · rw [if_neg hs]
    exact ⟨_, bestFit_eq_find hr hs c.positive
      (ParallelSearch.finished_of_count c.positive c.complete)⟩

/-- The first transaction does not fit, and two goroutines find the second. -/
example : ∃ (c : FitCall) (w : Worker), c.result = .ok (w, .ok (plainTx 2 0 1 0)) :=
  ⟨⟨{ newWorker ⟨0, 0, 0, 0, 0, 0, 0, 0, 0⟩ with
      txSortedList := ⟨∅, [{ plainTx 1 0 2 0 with bytes := 99 }, plainTx 2 0 1 0]⟩ },
    rfl, ⟨zeroCounters, 80⟩, zeroCounters, 2, Nat.two_pos, [0, 1, 0, 1, 0, 1, 0, 1, 0, 1],
    by decide⟩, _, rfl⟩

/-- No transaction of an empty list fits, and the error is another one. -/
theorem emptyList_fits_none : ∃ (c : FitCall) (w : Worker),
    (∀ tx ∈ c.sorted, fitsIn c.remaining c.high tx = false) ∧
    c.result = .ok (w, .error .errTransactionsListEmpty) :=
  ⟨⟨newWorker ⟨0, 0, 0, 0, 0, 0, 0, 0, 0⟩, rfl, ⟨zeroCounters, 0⟩, zeroCounters, 1, Nat.one_pos,
    [0], by decide⟩, _, nofun, rfl⟩

structure NoneFits (w : Worker) (remaining : BatchResources) (high : ZKCounters) : Prop where
  reorged : (w.nextReorgedTx w.reorgedTxs).1 = none
  ready : w.txSortedList.sorted ≠ []
  fits : ∀ tx ∈ w.txSortedList.sorted, fitsIn remaining high tx = false

lemma noneFits_of_getBestFittingTx {w' : Worker} {n : ℕ} (hn : 0 < n)
    (h : w.getBestFittingTx remaining high n sc =
    .ok (w', .error .errNoFittingTransaction)) : w.NoneFits remaining high := by
  have hc := h
  unfold getBestFittingTx at h
  simp only at h
  split at h
  · cases h
  next hr =>
  split at h
  · cases h
  next hl =>
  have hs : w.txSortedList.sorted ≠ [] := fun hnl => hl (by rw [hnl]; rfl)
  split at h
  · next hi =>
    rw [bestFit_eq_find hr hs hn hi] at hc
    refine ⟨hr, hs, fun tx ht => ?_⟩
    cases hf : w.txSortedList.sorted.find? (fitsIn remaining high) with
    | none => exact Bool.eq_false_iff.mpr (List.find?_eq_none.mp hf tx ht)
    | some found =>
      rw [hf] at hc
      cases hc
  · cases h

end Worker

end EthdaNode.Sequencer
