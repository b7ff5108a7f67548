import Mathlib.Data.List.Nodup
import Mathlib.Order.Basic

/-!
# Waiting for the monitored transactions

`ProcessPendingMonitoredTxs` queries the transactions of its owner that are not done, gives those
that are confirmed or failed to the handler of the owner, and waits for the others, until the query
is empty. Meanwhile the monitoring changes the statuses.
-/

namespace EthdaNode.EthTxManager

open List

/-- `MonitoredTxStatus`, except for the status of a transaction that is done. -/
inductive MonitoredTxStatus where
  | created
  | sent
  | failed
  | confirmed
  | reorged
  deriving DecidableEq

open MonitoredTxStatus

/-- The owner's transactions, their statuses over time, the calls of the storage that fail, and
those of `Reorg`, which take transactions back, also such as are done. Every transaction becomes
confirmed or failed, and stays so until it is taken back. -/
structure Monitoring where
  ids : List ℕ
  nodup : ids.Nodup
  status : ℕ → ℕ → MonitoredTxStatus
  fails : ℕ → Bool
  reorgs : ℕ → ℕ → Bool
  final : ∀ id ∈ ids, ∀ t, reorgs t id = false → status t id = confirmed ∨ status t id = failed →
    status (t + 1) id = status t id
  takenBack : ∀ t id, reorgs t id = true → status (t + 1) id = reorged
  settled : ℕ
  settles : ∀ id ∈ ids, status settled id = confirmed ∨ status settled id = failed
  succeeds : ∀ t, settled ≤ t → fails t = false

/-- Where the loop is: before the query, at a result, or in the waiting loop of a result. -/
inductive Phase where
  | query
  | results (rest : List (ℕ × MonitoredTxStatus))
  | waiting (id : ℕ) (rest : List (ℕ × MonitoredTxStatus))
  | returned

/-- `ProcessPendingMonitoredTxs` while it runs, the transactions that it has set to done, and the
handler's calls. -/
structure Processing where
  phase : Phase
  done : List ℕ
  handled : List ℕ

def Processing.pending (m : Monitoring) (s : Processing) : List ℕ := m.ids.filter (· ∉ s.done)

def Processing.step (m : Monitoring) (t : ℕ) (s : Processing) : Processing :=
  match s.phase with
  | .query =>
    if m.fails t then s
    else if s.pending m = [] then { s with phase := .returned }
    else { s with phase := .results ((s.pending m).map fun id => (id, m.status t id)) }
  | .results [] => { s with phase := .query }
  | .results ((id, confirmed) :: rest) =>
    if m.fails t then { s with phase := .results rest }
    else ⟨.results rest, id :: s.done, id :: s.handled⟩
  | .results ((id, failed) :: rest) => ⟨.results rest, s.done, id :: s.handled⟩
  | .results ((id, _) :: rest) => { s with phase := .waiting id rest }
  | .waiting id rest =>
    if m.fails t then s
    else if m.status t id = confirmed ∨ m.status t id = failed then
      { s with phase := .results rest }
    else s
  | .returned => s

/-- `Reorg` sets its transactions to reorged, whatever their status. -/
def Processing.reorg (m : Monitoring) (t : ℕ) (s : Processing) : Processing :=
  { s with done := s.done.filter (!m.reorgs t ·) }

def Processing.run (m : Monitoring) : ℕ → Processing
  | 0 => ⟨.query, [], []⟩
  | t + 1 => ((run m t).step m t).reorg m t

variable {m : Monitoring}

def Processing.rest (s : Processing) : List (ℕ × MonitoredTxStatus) :=
  match s.phase with
  | .results rest => rest
  | .waiting _ rest => rest
  | _ => []

/-- The results to be handled were read before, a transaction is done only if it was confirmed, and
the function returns only if all are done. -/
structure Processing.Inv (m : Monitoring) (s : Processing) : Prop where
  rest : ∀ r ∈ s.rest, r.1 ∈ m.ids ∧ r.1 ∉ s.done ∧ ∃ t, m.status t r.1 = r.2
  waiting : ∀ id rest, s.phase = .waiting id rest → id ∈ m.ids
  nodup : (s.rest.map Prod.fst).Nodup
  done : ∀ id ∈ s.done, id ∈ m.ids ∧ ∃ t, m.status t id = confirmed
  doneOnce : s.done.Nodup
  returned : s.phase = .returned → ∀ id ∈ m.ids, id ∈ s.done
  handled : (∀ id ∈ m.ids, ∃ t, m.status t id = confirmed) → s.handled = s.done

lemma Processing.Inv.next {s : Processing} {r : ℕ × MonitoredTxStatus}
    {rest : List (ℕ × MonitoredTxStatus)} (h : s.Inv m) (hp : s.phase = .results (r :: rest)) :
    ({ s with phase := .results rest } : Processing).Inv m := by
  have hr := h.rest
  have hn := h.nodup
  rw [Processing.rest, hp] at hr hn
  exact ⟨fun r' hr' => hr r' (mem_cons_of_mem _ hr'), nofun, (nodup_cons.mp hn).2,
    h.done, h.doneOnce, nofun, h.handled⟩

/-- No reorganization of L1 takes a transaction back. -/
def Monitoring.NoReorg (m : Monitoring) : Prop := ∀ t id, m.reorgs t id = false

section
variable {t : ℕ} (hno : m.NoReorg)
include hno

lemma Processing.run_succ : run m (t + 1) = (run m t).step m t := by
  simp [run, reorg, hno t]

lemma Monitoring.status_eq {id t' : ℕ} (hi : id ∈ m.ids) (hl : t ≤ t')
    (h : m.status t id = confirmed ∨ m.status t id = failed) : m.status t' id = m.status t id := by
  induction hl with
  | refl => rfl
  | @step t' _ ih => rw [m.final id hi t' (hno t' id) (ih ▸ h), ih]

lemma Monitoring.not_failed {id t' : ℕ} (hi : id ∈ m.ids)
    (hc : m.status t id = confirmed) : m.status t' id ≠ failed := by
  intro hf
  have h := status_eq hno hi (Nat.le_max_left t t') (.inl hc)
  have h' := status_eq hno hi (Nat.le_max_right t t') (.inr hf)
  rw [h, hc, hf] at h'
  cases h'

lemma Processing.Inv.step {s : Processing} (h : s.Inv m) (t : ℕ) : (s.step m t).Inv m := by
  have hx := @Inv.next m s
  rw [Processing.step.eq_def]
  split
  next hp =>
    split_ifs with hf hpn
    · exact h
    · refine ⟨nofun, nofun, nodup_nil, h.done, h.doneOnce, fun _ id hi => ?_, h.handled⟩
      by_contra hnt
      have hm : id ∈ s.pending m := mem_filter.mpr ⟨hi, decide_eq_true hnt⟩
      rw [hpn] at hm
      cases hm
    refine ⟨fun r hr => ?_, nofun, ?_, h.done, h.doneOnce, nofun, h.handled⟩
    · obtain ⟨id, hi, rfl⟩ := mem_map.mp hr
      obtain ⟨hm, hnt⟩ := mem_filter.mp hi
      exact ⟨hm, of_decide_eq_true hnt, t, rfl⟩
    change ((List.map _ _).map _).Nodup
    rw [map_map]
    exact (m.nodup.filter _).map_on fun _ _ _ _ he => he
  next => exact ⟨nofun, nofun, nodup_nil, h.done, h.doneOnce, nofun, h.handled⟩
  next id rest hp =>
    split_ifs with hf
    · exact hx h hp
    have hs := h.rest
    have hn := h.nodup
    rw [Processing.rest, hp] at hs hn
    obtain ⟨hm, hnt, t, ht⟩ := hs _ mem_cons_self
    refine ⟨fun r hr => ?_, nofun, (nodup_cons.mp hn).2, fun id' hid' => ?_,
      nodup_cons.mpr ⟨hnt, h.doneOnce⟩, nofun, fun ha => ?_⟩
    · obtain ⟨hme, ho, hst⟩ := hs r (mem_cons_of_mem _ hr)
      refine ⟨hme, fun hd => ?_, hst⟩
      rcases mem_cons.mp hd with he | hd
      · exact (nodup_cons.mp hn).1 (mem_map.mpr ⟨r, hr, he⟩)
      · exact ho hd
    · rcases mem_cons.mp hid' with rfl | hid'
      · exact ⟨hm, t, ht⟩
      · exact h.done id' hid'
    · rw [h.handled ha]
  next id rest hp =>
    have hk := hx h hp
    refine ⟨hk.rest, nofun, hk.nodup, h.done, h.doneOnce, nofun, fun ha => ?_⟩
    have hs := h.rest
    rw [Processing.rest, hp] at hs
    obtain ⟨hm, -, t, ht⟩ := hs _ mem_cons_self
    obtain ⟨t', ht'⟩ := ha id hm
    exact absurd ht (Monitoring.not_failed hno hm ht')
  next id status rest _ _ hp =>
    have hk := hx h hp
    have hs := h.rest
    rw [Processing.rest, hp] at hs
    refine ⟨hk.rest, fun id' rest' he => ?_, hk.nodup, h.done, h.doneOnce, nofun, h.handled⟩
    cases he
    exact (hs _ mem_cons_self).1
  next id rest hp =>
    have hs := h.rest
    have hn := h.nodup
    rw [Processing.rest, hp] at hs hn
    split_ifs
    · exact h
    · exact ⟨hs, nofun, hn, h.done, h.doneOnce, nofun, h.handled⟩
    · exact h
  next => exact h

lemma Processing.inv_run (t : ℕ) : (run m t).Inv m := by
  induction t with
  | zero => exact ⟨nofun, nofun, nodup_nil, nofun, nodup_nil, nofun, fun _ => rfl⟩
  | succ t ih =>
    rw [run_succ hno]
    exact ih.step hno t

/-! ## The end of the loop -/

lemma Monitoring.confirmed_of_settled (ha : ∀ id ∈ m.ids, ∃ t, m.status t id =
    confirmed) {id : ℕ} (hi : id ∈ m.ids) (ht : m.settled ≤ t) : m.status t id = confirmed := by
  rw [status_eq hno hi ht (m.settles id hi)]
  obtain ⟨t', ht'⟩ := ha id hi
  exact (m.settles id hi).resolve_right (Monitoring.not_failed hno hi ht')

lemma Processing.run_of_waiting (ha : ∀ id ∈ m.ids, ∃ t, m.status t id = confirmed) {id : ℕ}
    {rest : List (ℕ × MonitoredTxStatus)} (ht : m.settled ≤ t) (hi : id ∈ m.ids)
    (hp : (run m t).phase = .waiting id rest) :
    run m (t + 1) = { run m t with phase := .results rest } := by
  rw [run_succ hno, Processing.step, hp]
  dsimp only
  rw [m.succeeds t ht, if_neg Bool.false_ne_true,
    if_pos (.inl (Monitoring.confirmed_of_settled hno ha hi ht))]

lemma Processing.exists_query (ha : ∀ id ∈ m.ids, ∃ t, m.status t id = confirmed)
    {rest : List (ℕ × MonitoredTxStatus)} (ht : m.settled ≤ t)
    (hp : (run m t).phase = .results rest) : ∃ t', m.settled ≤ t' ∧ (run m t').phase = .query ∧ ∀
    id, id ∈ (run m t).done ∨ (id, confirmed) ∈ rest → id ∈ (run m t').done := by
  induction rest generalizing t with
  | nil =>
    refine ⟨t + 1, by omega, ?_, fun id hid => ?_⟩
    · rw [run_succ hno, Processing.step, hp]
    · rw [run_succ hno, Processing.step, hp]
      exact hid.resolve_right not_mem_nil
  | cons r rest ih =>
    have hr := (inv_run hno t).rest
    rw [Processing.rest, hp] at hr
    obtain ⟨hm, -, t₀, ht₀⟩ := hr r mem_cons_self
    obtain ⟨id, status⟩ := r
    have hf := m.succeeds t ht
    -- a result that was not confirmed when it was read is so now
    have hw : (run m (t + 1)).phase = .waiting id rest → (run m (t + 1)).done = (run m t).done →
        status ≠ confirmed → ∃ t', m.settled ≤ t' ∧ (run m t').phase = .query ∧ ∀ id', id' ∈ (run m
        t).done ∨ (id', confirmed) ∈ (id, status) :: rest → id' ∈ (run m t').done := by
      intro hwa hd hs
      have hn := run_of_waiting hno ha (by omega) hm hwa
      obtain ⟨t', ht', hq, ho⟩ := ih (t := t + 1 + 1) (by omega) (by rw [hn])
      refine ⟨t', ht', hq, fun id' hi => ho id' ?_⟩
      rw [hn, hd]
      refine hi.imp_right fun hme => (mem_cons.mp hme).resolve_left fun he => ?_
      exact hs (Prod.mk.inj he).2.symm
    cases status with
    | confirmed =>
      have hn : run m (t + 1) = ⟨.results rest, id :: (run m t).done, id :: (run m t).handled⟩ := by
        rw [run_succ hno, Processing.step, hp]
        dsimp only
        rw [hf, if_neg Bool.false_ne_true]
      obtain ⟨t', ht', hq, hd⟩ := ih (t := t + 1) (by omega) (by rw [hn])
      refine ⟨t', ht', hq, fun id' hi => hd id' ?_⟩
      rw [hn]
      rcases hi with hi | hi
      · exact .inl (mem_cons_of_mem _ hi)
      rcases mem_cons.mp hi with he | hi
      · exact .inl (mem_cons.mpr (.inl (Prod.mk.inj he).1))
      · exact .inr hi
    | failed =>
      obtain ⟨t', ht'⟩ := ha id hm
      exact absurd ht₀ (Monitoring.not_failed hno hm ht')
    | created =>
      refine hw ?_ ?_ nofun
      · rw [run_succ hno, Processing.step, hp]
      · rw [run_succ hno, Processing.step, hp]
    | sent =>
      refine hw ?_ ?_ nofun
      · rw [run_succ hno, Processing.step, hp]
      · rw [run_succ hno, Processing.step, hp]
    | reorged =>
      refine hw ?_ ?_ nofun
      · rw [run_succ hno, Processing.step, hp]
      · rw [run_succ hno, Processing.step, hp]

lemma Processing.exists_returned (ha : ∀ id ∈ m.ids, ∃ t, m.status t id = confirmed)
    (ht : m.settled ≤ t) (hq : (run m t).phase = .query) : ∃ t', (run m t').phase = .returned := by
  have hr : ∀ {t}, m.settled ≤ t → (run m t).phase = .query → (run m t).pending m = [] →
      (run m (t + 1)).phase = .returned := by
    intro t ht hq hp
    rw [run_succ hno, Processing.step, hq]
    dsimp only
    rw [m.succeeds t ht, if_neg Bool.false_ne_true, if_pos hp]
  by_cases hp : (run m t).pending m = []
  · exact ⟨t + 1, hr ht hq hp⟩
  have hn : run m (t + 1) = { run m t with
      phase := .results (((run m t).pending m).map fun id => (id, m.status t id)) } := by
    rw [run_succ hno, Processing.step, hq]
    dsimp only
    rw [m.succeeds t ht, if_neg Bool.false_ne_true, if_neg hp]
  obtain ⟨t', ht', hy, hd⟩ := exists_query hno ha (t := t + 1) (by omega) (by rw [hn])
  refine ⟨t' + 1, hr ht' hy (filter_eq_nil_iff.mpr fun id hi => ?_)⟩
  have hm : id ∈ (run m t').done := by
    refine hd id ?_
    rw [hn]
    by_cases hb : id ∈ (run m t).done
    · exact .inl hb
    · refine .inr (mem_map.mpr ⟨id, mem_filter.mpr ⟨hi, decide_eq_true hb⟩, ?_⟩)
      rw [Monitoring.confirmed_of_settled hno ha hi ht]
  simpa only [decide_not, Bool.not_eq_true', decide_eq_false_iff_not, not_not] using hm

end

/-- Without a reorganization the function returns, after one call of the handler for each
transaction, exactly if all are confirmed: a failed one stays in the query. -/
theorem processPendingMonitoredTxs_returns_iff (m : Monitoring) (hno : m.NoReorg) :
    (∃ t, (Processing.run m t).phase = .returned ∧
        ∀ id ∈ m.ids, (Processing.run m t).handled.count id = 1) ↔
      ∀ id ∈ m.ids, ∃ t, m.status t id = confirmed := by
  have hinv := fun t => Processing.inv_run hno t
  constructor
  · rintro ⟨t, hr, -⟩ id hid
    exact ((hinv t).done id ((hinv t).returned hr id hid)).2
  intro hall
  have he : ∃ t, (Processing.run m t).phase = .returned := by
    cases hp : (Processing.run m m.settled).phase with
    | query => exact Processing.exists_returned hno hall (Nat.le_refl _) hp
    | results rest =>
      obtain ⟨t, ht, hq, -⟩ := Processing.exists_query hno hall (Nat.le_refl _) hp
      exact Processing.exists_returned hno hall ht hq
    | waiting id rest =>
      have hid := (hinv m.settled).waiting id rest hp
      have hn := Processing.run_of_waiting hno hall (Nat.le_refl _) hid hp
      obtain ⟨t, ht, hq, -⟩ := Processing.exists_query hno hall (Nat.le_succ m.settled)
        (congrArg Processing.phase hn)
      exact Processing.exists_returned hno hall ht hq
    | returned => exact ⟨_, hp⟩
  obtain ⟨t, hr⟩ := he
  refine ⟨t, hr, fun id hid => ?_⟩
  rw [(hinv t).handled hall]
  exact count_eq_one_of_mem (hinv t).doneOnce ((hinv t).returned hr id hid)

def confirmedTxs : Monitoring where
  ids := [1, 2]
  nodup := by decide
  status := fun t id => if t < 3 * id then sent else confirmed
  fails := fun t => t = 0
  reorgs := fun _ _ => false
  final := by grind
  takenBack := nofun
  settled := 6
  settles := by decide
  succeeds := by grind

theorem confirmedTxs_returns : ∃ t, (Processing.run confirmedTxs t).phase = .returned ∧
    ∀ id ∈ [1, 2], (Processing.run confirmedTxs t).handled.count id = 1 :=
  (processPendingMonitoredTxs_returns_iff confirmedTxs fun _ _ => rfl).mpr
    fun _ hid => ⟨6, (confirmedTxs.settles _ hid).resolve_right (by grind [confirmedTxs])⟩

/-- A transaction that is taken back when it is done is handled twice. -/
example : ∃ m : Monitoring, (∀ id ∈ m.ids, m.status m.settled id = confirmed) ∧
    (Processing.run m 5).handled.count 1 = 2 := by
  refine ⟨⟨[1], by decide, fun t _ => if t = 2 then reorged else confirmed, fun _ => false,
    fun t _ => t = 1, by grind, by grind, 3, by decide, fun _ _ => rfl⟩, by decide, rfl⟩

def failedTx : Monitoring where
  ids := [1]
  nodup := nodup_singleton 1
  status := fun _ _ => failed
  fails := fun _ => false
  reorgs := fun _ _ => false
  final := fun _ _ _ _ _ => rfl
  takenBack := nofun
  settled := 0
  settles := fun _ _ => .inr rfl
  succeeds := fun _ _ => rfl

/-- The function does not return, and calls the handler again and again. -/
theorem failedTx_never_returns : (∀ t, (Processing.run failedTx t).phase ≠ .returned) ∧
    (Processing.run failedTx 8).handled.count 1 = 3 := by
  refine ⟨fun t hr => ?_, rfl⟩
  have hi := Processing.inv_run (m := failedTx) (fun _ _ => rfl) t
  obtain ⟨-, t', ht'⟩ := hi.done 1 (hi.returned hr 1 mem_cons_self)
  cases ht'

end EthdaNode.EthTxManager
