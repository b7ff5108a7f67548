import EthdaNode.L1ParallelSync.Coverage
import Mathlib.Data.List.Perm.Subperm
import Mathlib.Data.List.TakeWhile

/-!
# Results in the order of their blocks

The responses of the workers come in any order. The filter keeps them until the blocks
before them have been sent, and it keeps a control message until everything that has arrived
before it has been sent. What is sent is the longest beginning of the contiguous sequence of
ranges that has arrived, whatever the order of the arrivals.
-/

namespace EthdaNode.L1ParallelSync

open List UInt64

/-! ## Messages -/

/-- `rollupInfoByBlockRangeResult`: the numbers of its blocks and of the last block of the
range, and the rest of the data. -/
structure RollupInfoResult (α : Type) where
  blockRange : BlockRange
  blocks : List UInt64
  lastBlockOfRange : Option UInt64
  payload : α
  deriving DecidableEq

inductive ConsumerEvent where
  | none | stop | producerIsFullySynced
  deriving DecidableEq

structure ConsumerControl where
  event : ConsumerEvent
  parameter : UInt64
  deriving DecidableEq

/-- `L1SyncMessage`: data, or a control message. -/
structure L1SyncMessage (α : Type) where
  dataIsValid : Bool
  data : RollupInfoResult α
  ctrlIsValid : Bool
  ctrl : ConsumerControl

variable {α : Type}

namespace RollupInfoResult

def getRealHighestBlockNumberInResponse (r : RollupInfoResult α) : UInt64 :=
  let highest := r.blocks.foldl (fun highest block => if block > highest then block else highest)
    invalidBlockNumber
  match r.lastBlockOfRange with
  | some block => if block > highest then block else highest
  | none => highest

def getHighestBlockNumberInResponse (r : RollupInfoResult α) : UInt64 :=
  L1ParallelSync.getHighestBlockNumberInResponse r.blockRange r.getRealHighestBlockNumberInResponse

end RollupInfoResult

structure OrdererFilter (α : Type) where
  lastBlockOnSynchronizer : UInt64
  pendingResults : List (L1SyncMessage α)

namespace OrdererFilter

variable (lastBlockOnSynchronizer : UInt64)

def new : OrdererFilter α := ⟨lastBlockOnSynchronizer, []⟩

def reset (_ : OrdererFilter α) (lastBlockOnSynchronizer : UInt64) : OrdererFilter α :=
  ⟨lastBlockOnSynchronizer, []⟩

def matchNextBlock (results : RollupInfoResult α) : Bool :=
  results.blockRange.fromBlock = lastBlockOnSynchronizer + 1

def canSend (isFirst : Bool) (result : L1SyncMessage α) : Bool :=
  if result.dataIsValid then matchNextBlock lastBlockOnSynchronizer result.data else isFirst

/-- The loop of `sendResultIfPossibleUnsafe`: the first message that can be sent, and the others. -/
def takeSendable (lastBlockOnSynchronizer : UInt64) :
    Bool → List (L1SyncMessage α) → Option (L1SyncMessage α × List (L1SyncMessage α))
  | _, [] => none
  | isFirst, result :: results =>
    if canSend lastBlockOnSynchronizer isFirst result then some (result, results)
    else
      (takeSendable lastBlockOnSynchronizer false results).map fun (sent, left) =>
        (sent, result :: left)

/-- `setLastBlockOnSynchronizerCorrespondingLatBlockRangeSendUnsafe`, for data. -/
def lastBlockAfter (result : L1SyncMessage α) : UInt64 :=
  if result.dataIsValid then
    if result.data.getHighestBlockNumberInResponse = invalidBlockNumber then
      lastBlockOnSynchronizer
    else result.data.getHighestBlockNumberInResponse
  else lastBlockOnSynchronizer

/-- `sendResultIfPossibleUnsafe`. Every call but the last one sends a message, so messages bound the
calls. -/
def sendResultIfPossible : ℕ → OrdererFilter α → List (L1SyncMessage α) →
    OrdererFilter α × List (L1SyncMessage α)
  | 0, s, previous => (s, previous)
  | n + 1, s, previous =>
    match takeSendable s.lastBlockOnSynchronizer true s.pendingResults with
    | none => (s, previous)
    | some (result, left) =>
      sendResultIfPossible n ⟨lastBlockAfter s.lastBlockOnSynchronizer result, left⟩
        (previous ++ [result])

def filter (s : OrdererFilter α) (data : L1SyncMessage α) :
    OrdererFilter α × List (L1SyncMessage α) :=
  sendResultIfPossible (s.pendingResults.length + 1)
    { s with pendingResults := s.pendingResults ++ [data] } []

def filterAll (s : OrdererFilter α) :
    List (L1SyncMessage α) → OrdererFilter α × List (L1SyncMessage α)
  | [] => (s, [])
  | data :: arrivals => ((s.filter data).1.filterAll arrivals).map id ((s.filter data).2 ++ ·)

end OrdererFilter

open OrdererFilter

/-! ## Data and control messages of a list -/

variable (messages : List (L1SyncMessage α))

def dataOf : List (RollupInfoResult α) :=
  (messages.filter fun m => m.dataIsValid).map L1SyncMessage.data

def controlsOf : List (L1SyncMessage α) := messages.filter fun m => !m.dataIsValid

def dataBeforeControl : ℕ → List (L1SyncMessage α) → List (RollupInfoResult α)
  | _, [] => []
  | k, m :: messages =>
    if m.dataIsValid then m.data :: dataBeforeControl k messages
    else
      match k with
      | 0 => []
      | k + 1 => dataBeforeControl k messages

def Contiguous : UInt64 → List (RollupInfoResult α) → Prop
  | _, [] => True
  | last, d :: ds =>
    d.blockRange.fromBlock.toNat = last.toNat + 1 ∧
      d.blockRange.fromBlock ≤ d.blockRange.toBlock ∧ Contiguous d.blockRange.toBlock ds

section
variable {l l' l₁ l₂ : List (L1SyncMessage α)} {m : L1SyncMessage α} {k : ℕ}

@[simp]
lemma dataOf_append : dataOf (l ++ l') = dataOf l ++ dataOf l' := by simp [dataOf]

@[simp]
lemma controlsOf_append : controlsOf (l ++ l') = controlsOf l ++ controlsOf l' := by
  simp [controlsOf]

lemma dataOf_cons_of_data (hm : m.dataIsValid = true) : dataOf (m :: l) = m.data :: dataOf l := by
  simp [dataOf, hm]

lemma dataOf_cons_of_control (hm : m.dataIsValid = false) : dataOf (m :: l) = dataOf l := by
  simp [dataOf, hm]

lemma controls_cons_data (hm : m.dataIsValid = true) : controlsOf (m :: l) = controlsOf l := by
  simp [controlsOf, hm]

lemma controls_cons_control (hm : m.dataIsValid = false) :
    controlsOf (m :: l) = m :: controlsOf l := by
  simp [controlsOf, hm]

lemma before_cons_of_data (hm : m.dataIsValid = true) :
    dataBeforeControl k (m :: l) = m.data :: dataBeforeControl k l := by
  rw [dataBeforeControl.eq_def]
  exact if_pos hm

lemma before_zero_cons_of_control (hm : m.dataIsValid = false) :
    dataBeforeControl 0 (m :: l) = [] := by
  rw [dataBeforeControl, hm]
  rfl

lemma before_succ_cons_of_control (hm : m.dataIsValid = false) :
    dataBeforeControl (k + 1) (m :: l) = dataBeforeControl k l := by
  rw [dataBeforeControl, hm]
  rfl

lemma before_append_of_lt (hk : k < (controlsOf l).length) :
    dataBeforeControl k (l ++ l') = dataBeforeControl k l := by
  induction l generalizing k with
  | nil => cases hk
  | cons m l ih =>
    cases hm : m.dataIsValid with
    | true =>
      rw [controls_cons_data hm] at hk
      rw [cons_append, before_cons_of_data hm, before_cons_of_data hm, ih hk]
    | false =>
      cases k with
      | zero =>
        rw [cons_append, before_zero_cons_of_control hm, before_zero_cons_of_control hm]
      | succ k =>
        rw [controls_cons_control hm] at hk
        rw [cons_append, before_succ_cons_of_control hm,
          before_succ_cons_of_control hm, ih (Nat.lt_of_succ_lt_succ hk)]

lemma before_append_add : dataBeforeControl ((controlsOf l).length + k) (l ++ l') =
    dataOf l ++ dataBeforeControl k l' := by
  induction l with
  | nil => rw [nil_append, controlsOf, filter_nil, length_nil, Nat.zero_add]; rfl
  | cons m l ih =>
    cases hm : m.dataIsValid with
    | true =>
      rw [cons_append, before_cons_of_data hm, controls_cons_data hm, ih,
        dataOf_cons_of_data hm, cons_append]
    | false =>
      rw [cons_append, controls_cons_control hm, length_cons, Nat.succ_add,
        before_succ_cons_of_control hm, ih, dataOf_cons_of_control hm]

/-- Only the data of the message itself is missing without the message. -/
lemma before_middle_subset (hm : m.dataIsValid = true) :
    dataBeforeControl k (l₁ ++ m :: l₂) ⊆ m.data :: dataBeforeControl k (l₁ ++ l₂) := by
  by_cases hk : k < (controlsOf l₁).length
  · rw [before_append_of_lt hk, before_append_of_lt hk]
    exact subset_cons_self _ _
  obtain ⟨j, rfl⟩ := Nat.exists_eq_add_of_le (Nat.not_lt.mp hk)
  rw [before_append_add, before_append_add, before_cons_of_data hm]
  intro d hd
  simp only [mem_append, mem_cons] at hd ⊢
  tauto
end

/-! ## Contiguous ranges -/

section
variable {last : UInt64} {d : RollupInfoResult α} {chain : List (RollupInfoResult α)}

lemma Contiguous.lt_fromBlock (h : Contiguous last chain) (hd : d ∈ chain) :
    last.toNat < d.blockRange.fromBlock.toNat := by
  induction chain generalizing last with
  | nil => cases hd
  | cons d' chain ih =>
    obtain ⟨hf, hl, hc⟩ := h
    rcases mem_cons.mp hd with rfl | hd
    · omega
    have ht := ih hc hd
    rw [le_iff_toNat_le] at hl
    omega

lemma Contiguous.eq_cons (h : Contiguous last chain) (hd : d ∈ chain)
    (hf : d.blockRange.fromBlock = last + 1) : ∃ rest, chain = d :: rest ∧ d.blockRange.fromBlock ≤
    d.blockRange.toBlock ∧ Contiguous d.blockRange.toBlock rest := by
  rcases chain with _ | ⟨d', chain⟩
  · cases hd
  obtain ⟨hfm, hl, hc⟩ := h
  rcases mem_cons.mp hd with rfl | hd
  · exact ⟨chain, rfl, hl, hc⟩
  have ht := hc.lt_fromBlock hd
  rw [le_iff_toNat_le] at hl
  rw [hf, UInt64.toNat_add] at ht
  have hm : (last.toNat + (1 : UInt64).toNat) % 2 ^ 64 ≤ last.toNat + 1 := Nat.mod_le _ _
  omega

lemma Contiguous.nodup (h : Contiguous last chain) : chain.Nodup := by
  induction chain generalizing last with
  | nil => exact nodup_nil
  | cons d chain ih =>
    obtain ⟨-, hl, hc⟩ := h
    refine nodup_cons.mpr ⟨fun hd => ?_, ih hc⟩
    have ht := hc.lt_fromBlock hd
    rw [le_iff_toNat_le] at hl
    omega

lemma Contiguous.eq_nil (h : Contiguous latestBlockNumber chain) : chain = [] := by
  rcases chain with _ | ⟨d, chain⟩
  · rfl
  have hl := d.blockRange.fromBlock.toNat_lt
  rw [h.1] at hl
  exact absurd hl (by decide)
end

namespace OrdererFilter

variable {last : UInt64} {isFirst : Bool} {res : L1SyncMessage α}
  {pending left : List (L1SyncMessage α)}

lemma takeSendable_eq_some (h : takeSendable last isFirst pending = some (res, left)) :
    ∃ bef after, pending = bef ++ res :: after ∧ left = bef ++ after ∧
    canSend last (isFirst && bef.isEmpty) res = true := by
  induction pending generalizing isFirst left with
  | nil => cases h
  | cons m pending ih =>
    rw [takeSendable] at h
    split_ifs at h with hs
    · cases h
      exact ⟨[], _, rfl, rfl, by rw [isEmpty_nil, Bool.and_true]; exact hs⟩
    obtain ⟨⟨sent, left'⟩, ht, he⟩ := Option.map_eq_some_iff.mp h
    cases he
    obtain ⟨bef, after, rfl, rfl, hc⟩ := ih ht
    refine ⟨m :: bef, after, rfl, rfl, ?_⟩
    rw [isEmpty_cons, Bool.and_false]
    rw [Bool.false_and] at hc
    exact hc

lemma takeSendable_eq_none (h : takeSendable last isFirst pending = none) :
    (∀ m ∈ pending, m.dataIsValid = true → m.data.blockRange.fromBlock ≠ last + 1) ∧
    (isFirst = true → ∀ m ∈ pending.head?, m.dataIsValid = true) := by
  induction pending generalizing isFirst with
  | nil => exact ⟨nofun, fun _ => nofun⟩
  | cons m pending ih =>
    rw [takeSendable] at h
    split_ifs at h with hs
    obtain ⟨hp, -⟩ := ih (Option.map_eq_none_iff.mp h)
    refine ⟨fun m' hm' hd => ?_, fun hfs m' hm' => ?_⟩
    · rcases mem_cons.mp hm' with rfl | hm'
      · intro hf
        refine hs ?_
        rw [canSend, if_pos hd]
        exact decide_eq_true hf
      · exact hp m' hm' hd
    · cases hm'
      by_contra hd
      exact hs (by rw [canSend, if_neg hd]; exact hfs)

/-- No message is lost or sent twice. -/
lemma sendResult_perm {n : ℕ} {s : OrdererFilter α} {prev : List (L1SyncMessage α)} :
    ((sendResultIfPossible n s prev).2 ++ (sendResultIfPossible n s prev).1.pendingResults).Perm
    (prev ++ s.pendingResults) := by
  induction n generalizing s prev with
  | zero => exact .refl _
  | succ n ih =>
    rw [sendResultIfPossible]
    rcases ht : takeSendable s.lastBlockOnSynchronizer true s.pendingResults with _ | taken
    · exact .refl _
    obtain ⟨res, left⟩ := taken
    obtain ⟨bef, after, hp, rfl, -⟩ := takeSendable_eq_some ht
    refine ih.trans ?_
    rw [hp, append_assoc]
    exact (@perm_middle _ res bef after).symm.append_left prev

lemma filter_perm (s : OrdererFilter α) (data : L1SyncMessage α) :
    ((s.filter data).2 ++ (s.filter data).1.pendingResults).Perm (s.pendingResults ++ [data]) :=
  sendResult_perm

def Ignores (s : OrdererFilter α) (data : L1SyncMessage α) : Prop :=
  data ∉ (s.filter data).2 ∧ (s.filter data).1.pendingResults = s.pendingResults

/-- No message is ignored, also none whose range was sent before: the check only logs it. -/
theorem not_ignores (s : OrdererFilter α) (data : L1SyncMessage α) : ¬s.Ignores data := by
  rintro ⟨hs, hk⟩
  have hp := (s.filter_perm data).trans perm_append_comm
  rw [hk, perm_append_right_iff] at hp
  exact hs (hp.mem_iff.mpr (.head _))

/-- What has been sent is a beginning of the chain, and the rest is still to come. -/
structure Sends (chain : List (RollupInfoResult α)) (arrived sent : List (L1SyncMessage α))
    (s : OrdererFilter α) : Prop where
  chain : ∃ rest, chain = dataOf sent ++ rest ∧ Contiguous s.lastBlockOnSynchronizer rest
  perm : (dataOf arrived).Perm (dataOf sent ++ dataOf s.pendingResults)
  controls : controlsOf arrived = controlsOf sent ++ controlsOf s.pendingResults
  before : ∀ k, dataBeforeControl ((controlsOf sent).length + k) arrived ⊆
    dataOf sent ++ dataBeforeControl k s.pendingResults
  order : ∀ k < (controlsOf sent).length, dataBeforeControl k arrived ⊆ dataBeforeControl k sent

variable {chain : List (RollupInfoResult α)} {arrived sent : List (L1SyncMessage α)}
  {s : OrdererFilter α}

lemma Sends.length_controls (h : Sends chain arrived sent s) : (controlsOf arrived).length =
    (controlsOf sent).length + (controlsOf s.pendingResults).length := by
  rw [h.controls, length_append]

lemma sends_new (hc : Contiguous last chain) : Sends chain [] [] (new last) :=
  ⟨⟨chain, rfl, hc⟩, .refl _, rfl, fun _ => nil_subset _, nofun⟩

section
variable (h : Sends chain arrived sent s)
include h

lemma Sends.arrive (data : L1SyncMessage α) : Sends chain (arrived ++ [data]) sent
    { s with pendingResults := s.pendingResults ++ [data] } where
  chain := h.chain
  perm := by
    simp only [dataOf_append]
    rw [← append_assoc]
    exact h.perm.append_right _
  controls := by
    simp only [controlsOf_append]
    rw [h.controls, append_assoc]
  before := by
    intro k
    by_cases hk : k < (controlsOf s.pendingResults).length
    · rw [before_append_of_lt hk,
        before_append_of_lt (by rw [h.length_controls]; omega)]
      exact h.before k
    obtain ⟨j, rfl⟩ := Nat.exists_eq_add_of_le (Nat.not_lt.mp hk)
    rw [before_append_add, ← Nat.add_assoc, ← h.length_controls,
      before_append_add, ← append_assoc]
    intro d hd
    rcases mem_append.mp hd with hd | hd
    · exact mem_append_left _ (h.perm.mem_iff.mp hd)
    · exact mem_append_right _ hd
  order := by
    intro k hk
    rw [before_append_of_lt (by rw [h.length_controls]; omega)]
    exact h.order k hk

lemma Sends.chain_of_data (hs : (dataOf arrived).Subperm chain) (hm : res ∈ s.pendingResults)
    (hd : res.dataIsValid = true)
    (hf : res.data.blockRange.fromBlock = s.lastBlockOnSynchronizer + 1) : ∃ rest, chain = dataOf
    sent ++ res.data :: rest ∧ Contiguous (lastBlockAfter s.lastBlockOnSynchronizer res) rest := by
  obtain ⟨rest, rfl, he⟩ := h.chain
  have hp : (dataOf s.pendingResults).Subperm rest :=
    (subperm_append_left (dataOf sent)).mp (h.perm.symm.subperm.trans hs)
  have hdata' : res.data ∈ dataOf s.pendingResults := mem_map_of_mem (mem_filter.mpr ⟨hm, hd⟩)
  obtain ⟨rest, rfl, hle, hr⟩ := he.eq_cons (hp.subset hdata') hf
  refine ⟨rest, rfl, ?_⟩
  by_cases hl : res.data.blockRange.toBlock = latestBlockNumber
  · rw [hl] at hr
    rw [hr.eq_nil]
    trivial
  have hh : res.data.getHighestBlockNumberInResponse = res.data.blockRange.toBlock := if_pos hl
  have hn : res.data.blockRange.toBlock ≠ invalidBlockNumber := by
    intro hz
    have ht := he.lt_fromBlock (.head _)
    rw [hz, le_iff_toNat_le] at hle
    have hzero' : invalidBlockNumber.toNat = 0 := rfl
    omega
  rw [lastBlockAfter, if_pos hd, hh, if_neg hn]
  exact hr

lemma Sends.send_data (hb : (dataOf arrived).Subperm chain) {before after : List (L1SyncMessage α)}
    (hp : s.pendingResults = before ++ res :: after) (ht : res.dataIsValid = true)
    (hf : res.data.blockRange.fromBlock = s.lastBlockOnSynchronizer + 1) : Sends chain arrived
    (sent ++ [res]) ⟨lastBlockAfter s.lastBlockOnSynchronizer res, before ++ after⟩ := by
  have hs : controlsOf (sent ++ [res]) = controlsOf sent := by
    rw [controlsOf_append, controls_cons_data ht]
    exact append_nil _
  have hsent' : dataOf (sent ++ [res]) = dataOf sent ++ [res.data] := by
    rw [dataOf_append, dataOf_cons_of_data ht]
    rfl
  have hm : res ∈ s.pendingResults := hp ▸ mem_append_right _ (.head _)
  constructor
  case chain =>
    obtain ⟨rest, hc, hr⟩ := h.chain_of_data hb hm ht hf
    refine ⟨rest, ?_, hr⟩
    rw [hc, hsent', append_assoc]
    rfl
  case perm =>
    refine h.perm.trans ?_
    rw [hp, hsent', dataOf_append, dataOf_append, dataOf_cons_of_data ht, append_assoc]
    exact perm_middle.append_left _
  case controls =>
    rw [hs, h.controls, hp, controlsOf_append, controlsOf_append, controls_cons_data ht]
  case before =>
    intro k d hd
    rw [hs] at hd
    rw [hsent']
    have hd' := h.before k hd
    rw [hp] at hd'
    rcases mem_append.mp hd' with hd' | hd'
    · exact mem_append_left _ (mem_append_left _ hd')
    rcases mem_cons.mp (before_middle_subset ht hd') with rfl | hd'
    · exact mem_append_left _ (mem_append_right _ (.head _))
    · exact mem_append_right _ hd'
  case order =>
    intro k hk
    rw [hs] at hk
    rw [before_append_of_lt hk]
    exact h.order k hk

lemma Sends.send_control {after : List (L1SyncMessage α)}
    (hp : s.pendingResults = res :: after) (hc : res.dataIsValid = false) :
    Sends chain arrived (sent ++ [res]) ⟨s.lastBlockOnSynchronizer, after⟩ := by
  have hs : controlsOf (sent ++ [res]) = controlsOf sent ++ [res] := by
    rw [controlsOf_append, controls_cons_control hc]
    rfl
  have hsent' : dataOf (sent ++ [res]) = dataOf sent := by
    rw [dataOf_append, dataOf_cons_of_control hc]
    exact append_nil _
  constructor
  case chain =>
    rw [hsent']
    exact h.chain
  case perm =>
    have hr := h.perm
    rw [hp, dataOf_cons_of_control hc] at hr
    rw [hsent']
    exact hr
  case controls =>
    rw [hs, h.controls, hp, controls_cons_control hc, append_assoc]
    rfl
  case before =>
    intro k
    have hb := h.before (k + 1)
    rw [hp, before_succ_cons_of_control hc] at hb
    rw [hs, hsent', length_append, length_singleton, Nat.add_assoc, Nat.add_comm 1]
    exact hb
  case order =>
    intro k hk
    rw [hs, length_append, length_singleton] at hk
    rcases Nat.lt_succ_iff_lt_or_eq.mp hk with hk | rfl
    · rw [before_append_of_lt hk]
      exact h.order k hk
    -- The message is the first one, so that all data before it has been sent.
    have hb := h.before 0
    rw [hp, before_zero_cons_of_control hc, Nat.add_zero, append_nil] at hb
    have ha : dataBeforeControl ((controlsOf sent).length + 0) (sent ++ [res]) =
        dataOf sent ++ dataBeforeControl 0 [res] := before_append_add
    rw [Nat.add_zero, before_zero_cons_of_control hc, append_nil] at ha
    rw [ha]
    exact hb
end

lemma Sends.sendResultIfPossible (hs : (dataOf arrived).Subperm chain) {n : ℕ}
    {prev : List (L1SyncMessage α)} (hn : s.pendingResults.length ≤ n)
    (h : Sends chain arrived (sent ++ prev) s) : Sends chain arrived
    (sent ++ (sendResultIfPossible n s prev).2) (sendResultIfPossible n s prev).1 ∧ takeSendable
    (sendResultIfPossible n s prev).1.lastBlockOnSynchronizer true
    (sendResultIfPossible n s prev).1.pendingResults = none := by
  induction n generalizing s prev with
  | zero =>
    refine ⟨h, ?_⟩
    change takeSendable s.lastBlockOnSynchronizer true s.pendingResults = none
    rw [length_eq_zero_iff.mp (Nat.le_zero.mp hn)]
    rfl
  | succ n ih =>
    rw [sendResultIfPossible]
    cases ht : takeSendable s.lastBlockOnSynchronizer true s.pendingResults with
    | none => exact ⟨h, ht⟩
    | some taken =>
      obtain ⟨res, left⟩ := taken
      obtain ⟨bef, after, hp, rfl, hc⟩ := takeSendable_eq_some ht
      have hl : (bef ++ after).length ≤ n := by
        rw [hp, length_append, length_cons] at hn
        rw [length_append]
        omega
      refine ih hl ?_
      rw [← append_assoc]
      cases hd : res.dataIsValid with
      | true =>
        rw [canSend, if_pos hd] at hc
        exact h.send_data hs hp hd (of_decide_eq_true hc)
      | false =>
        rw [canSend, if_neg (Bool.eq_false_iff.mp hd), Bool.true_and, List.isEmpty_iff] at hc
        obtain rfl := hc
        rw [lastBlockAfter, if_neg (Bool.eq_false_iff.mp hd)]
        exact h.send_control hp hd

lemma Sends.filter (h : Sends chain arrived sent s) (data : L1SyncMessage α)
    (hs : (dataOf (arrived ++ [data])).Subperm chain) : Sends chain (arrived ++ [data])
    (sent ++ (s.filter data).2) (s.filter data).1 ∧ takeSendable
    (s.filter data).1.lastBlockOnSynchronizer true (s.filter data).1.pendingResults = none := by
  refine Sends.sendResultIfPossible hs ?_ ?_
  · rw [length_append, length_singleton]
  · rw [append_nil]
    exact h.arrive data

lemma Sends.filterAll {arr : List (L1SyncMessage α)} (h : Sends chain arrived sent s)
    (hnn : takeSendable s.lastBlockOnSynchronizer true s.pendingResults = none)
    (hs : (dataOf (arrived ++ arr)).Subperm chain) : Sends chain (arrived ++ arr)
    (sent ++ (s.filterAll arr).2) (s.filterAll arr).1 ∧ takeSendable
    (s.filterAll arr).1.lastBlockOnSynchronizer true (s.filterAll arr).1.pendingResults = none := by
  induction arr generalizing s arrived sent with
  | nil =>
    rw [append_nil]
    exact ⟨by rw [filterAll, append_nil]; exact h, hnn⟩
  | cons data arr ih =>
    rw [append_cons] at hs ⊢
    have hf : (dataOf (arrived ++ [data])).Subperm chain := by
      have ha : dataOf (arrived ++ [data] ++ arr) =
          dataOf (arrived ++ [data]) ++ dataOf arr := dataOf_append
      rw [ha] at hs
      exact (sublist_append_left _ _).subperm.trans hs
    obtain ⟨hn, ho⟩ := h.filter data hf
    have hr := ih hn ho hs
    rw [append_assoc sent] at hr
    exact hr

end OrdererFilter

/-- Every data message begins with the block after the last one of the data before it. -/
def Follows : UInt64 → List (L1SyncMessage α) → Prop
  | _, [] => True
  | last, m :: messages => (m.dataIsValid = true → m.data.blockRange.fromBlock = last + 1) ∧
    Follows (lastBlockAfter last m) messages

lemma follows_append {last : UInt64} {l m : List (L1SyncMessage α)} :
    Follows last (l ++ m) ↔ Follows last l ∧ Follows (l.foldl lastBlockAfter last) m := by
  induction l generalizing last with
  | nil => exact (and_iff_right trivial).symm
  | cons a l ih => rw [cons_append, Follows, Follows, ih, and_assoc, foldl_cons]

lemma sendResult_follows {n : ℕ} {s : OrdererFilter α} {prev : List (L1SyncMessage α)}
    {last : UInt64} (hp : Follows last prev)
    (hl : s.lastBlockOnSynchronizer = prev.foldl lastBlockAfter last) :
    Follows last (sendResultIfPossible n s prev).2 ∧
    (sendResultIfPossible n s prev).1.lastBlockOnSynchronizer =
    (sendResultIfPossible n s prev).2.foldl lastBlockAfter last := by
  induction n generalizing s prev with
  | zero => exact ⟨hp, hl⟩
  | succ n ih =>
    rw [sendResultIfPossible]
    split
    · exact ⟨hp, hl⟩
    next res left ht =>
    obtain ⟨_, _, -, -, hc⟩ := takeSendable_eq_some ht
    refine ih (follows_append.mpr ⟨hp, fun hd => ?_, trivial⟩) ?_
    · rw [canSend, if_pos hd, matchNextBlock, decide_eq_true_iff] at hc
      rw [hc, hl]
    · rw [foldl_append, ← hl]
      rfl

/-- Whatever arrives, with ranges that overlap or leave gaps: every message is sent once or waits,
and each range that is sent begins where the one before it ended. -/
theorem filterAll_conserves (s : OrdererFilter α) (arrivals : List (L1SyncMessage α)) :
    ((s.filterAll arrivals).2 ++ (s.filterAll arrivals).1.pendingResults).Perm
      (s.pendingResults ++ arrivals) ∧
    Follows s.lastBlockOnSynchronizer (s.filterAll arrivals).2 ∧
    (s.filterAll arrivals).1.lastBlockOnSynchronizer =
      (s.filterAll arrivals).2.foldl lastBlockAfter s.lastBlockOnSynchronizer := by
  induction arrivals generalizing s with
  | nil => exact ⟨by rw [append_nil]; rfl, trivial, rfl⟩
  | cons data arrivals ih =>
    obtain ⟨hp, hf, hl⟩ := ih (s.filter data).1
    obtain ⟨hf', hl'⟩ : Follows s.lastBlockOnSynchronizer (s.filter data).2 ∧
      (s.filter data).1.lastBlockOnSynchronizer = (s.filter data).2.foldl lastBlockAfter
        s.lastBlockOnSynchronizer := sendResult_follows trivial rfl
    refine ⟨?_, follows_append.mpr ⟨hf', hl' ▸ hf⟩, ?_⟩
    · rw [filterAll, Prod.map_fst, Prod.map_snd, append_assoc, append_cons]
      exact (hp.append_left _).trans
        (by rw [← append_assoc]; exact (s.filter_perm data).append_right _)
    · rw [filterAll, Prod.map_fst, Prod.map_snd, foldl_append, ← hl']
      exact hl

variable [DecidableEq α]

/-- What has arrived of a chain up to the first gap. -/
def arrivedPrefix (chain arrived : List (RollupInfoResult α)) : List (RollupInfoResult α) :=
  chain.takeWhile (· ∈ arrived)

lemma OrdererFilter.Sends.dataOf_eq {chain : List (RollupInfoResult α)}
    {arrived sent : List (L1SyncMessage α)} {s : OrdererFilter α} {last : UInt64}
    (hc : Contiguous last chain) (h : s.Sends chain arrived sent)
    (hn : takeSendable s.lastBlockOnSynchronizer true s.pendingResults = none) :
    dataOf sent = arrivedPrefix chain (dataOf arrived) := by
  obtain ⟨rest, rfl, hr⟩ := h.chain
  have hs : ∀ d ∈ dataOf sent, decide (d ∈ dataOf arrived) = true := fun d hd =>
    decide_eq_true (h.perm.mem_iff.mpr (mem_append_left _ hd))
  rw [arrivedPrefix, takeWhile_append_of_pos hs]
  rcases rest with _ | ⟨d, rest⟩
  · rw [takeWhile_nil, append_nil]
  have hd : d ∉ dataOf arrived := by
    intro hd
    rcases mem_append.mp (h.perm.mem_iff.mp hd) with hd | hd
    · have hds := (nodup_append.mp hc.nodup).2.2
      exact hds d hd d (.head _) rfl
    obtain ⟨m, hm, rfl⟩ := mem_map.mp hd
    obtain ⟨hm, ht⟩ := mem_filter.mp hm
    refine (takeSendable_eq_none hn).1 m hm ht ?_
    have hl := m.data.blockRange.fromBlock.toNat_lt
    rw [hr.1] at hl
    rw [← UInt64.toNat_inj, toNat_succ hl]
    exact hr.1
  rw [takeWhile_cons_of_neg (by rw [decide_eq_true_iff]; exact hd), append_nil]

/-- In every order of the arrivals, the data sent is the beginning of the chain that has arrived,
none twice and none left that could be sent; and the control messages are sent in order, each after
all data that arrived before it. -/
theorem filterAll_ordered {last : UInt64} {chain : List (RollupInfoResult α)}
    (hchain : Contiguous last chain) {arrivals : List (L1SyncMessage α)}
    (harrivals : (dataOf arrivals).Subperm chain) :
    dataOf ((new last).filterAll arrivals).2 = arrivedPrefix chain (dataOf arrivals) ∧
    (∀ arrivals', (dataOf arrivals').Perm (dataOf arrivals) →
    dataOf ((new last).filterAll arrivals').2 = dataOf ((new last).filterAll arrivals).2) ∧
    (dataOf ((new last).filterAll arrivals).2).Nodup ∧
    (∀ m ∈ ((new last).filterAll arrivals).1.pendingResults,
    m.dataIsValid = true → m.data.blockRange.fromBlock ≠
    ((new last).filterAll arrivals).1.lastBlockOnSynchronizer + 1) ∧
    (∀ m ∈ ((new last).filterAll arrivals).1.pendingResults.head?, m.dataIsValid = true) ∧
    controlsOf ((new last).filterAll arrivals).2 <+: controlsOf arrivals ∧
    ∀ k < (controlsOf ((new last).filterAll arrivals).2).length, dataBeforeControl k arrivals ⊆
    dataBeforeControl k ((new last).filterAll arrivals).2 := by
  have hal : ∀ arrivals, (dataOf arrivals).Subperm chain →
      ((new last).filterAll arrivals).1.Sends chain arrivals ((new last).filterAll arrivals).2 ∧
      takeSendable ((new last).filterAll arrivals).1.lastBlockOnSynchronizer true
      ((new last).filterAll arrivals).1.pendingResults = none :=
    fun arrivals h => (sends_new hchain).filterAll rfl h
  obtain ⟨hsn, hnn⟩ := hal arrivals harrivals
  have hd := Sends.dataOf_eq hchain hsn hnn
  obtain ⟨hl, hf⟩ := takeSendable_eq_none hnn
  refine ⟨hd, fun arrivals' hp => ?_, ?_, hl, hf rfl, ?_, hsn.order⟩
  · obtain ⟨hse, hno⟩ := hal arrivals' (hp.subperm.trans harrivals)
    rw [Sends.dataOf_eq hchain hse hno, hd, arrivedPrefix, arrivedPrefix]
    congr 1
    funext d
    exact decide_eq_decide.mpr hp.mem_iff
  · rw [hd]
    exact hchain.nodup.sublist (takeWhile_sublist _)
  · exact ⟨_, hsn.controls.symm⟩

def plainData (fromBlock toBlock : UInt64) : L1SyncMessage Unit :=
  ⟨true, ⟨⟨fromBlock, toBlock⟩, [], none, ()⟩, false, ⟨.none, 0⟩⟩

def plainControl : L1SyncMessage Unit :=
  ⟨false, ⟨⟨0, 0⟩, [], none, ()⟩, true, ⟨.producerIsFullySynced, 0⟩⟩

/-- A range up to block 100 stays, and the control message after it is never sent. -/
theorem old_range_blocks_control : (plainData 95 100).data.blockRange.fromBlock ≤ 100 ∧ ¬Ignores
    (new 100) (plainData 95 100) ∧ ((new 100).filterAll [plainData 95 100, plainControl]).2 = [] ∧
    ((new 100).filterAll [plainData 95 100, plainControl]).1.pendingResults.length = 2 :=
  ⟨by decide, fun h => absurd h.2 (List.cons_ne_nil _ _), rfl, rfl⟩

/-- The second range and a control message arrive before the first range. -/
theorem filterAll_ordered_two : dataOf ((new 100).filterAll
    [plainData 111 latestBlockNumber, plainControl, plainData 101 110]).2 =
    [(plainData 101 110).data, (plainData 111 latestBlockNumber).data] := by
  have hc : Contiguous 100 [(plainData 101 110).data, (plainData 111 latestBlockNumber).data] :=
    ⟨rfl, by decide, rfl, by decide, trivial⟩
  have har : (dataOf [plainData 111 latestBlockNumber, plainControl, plainData 101 110]).Subperm
      [(plainData 101 110).data, (plainData 111 latestBlockNumber).data] :=
    (Perm.swap _ _ []).subperm
  rw [(filterAll_ordered hc har).1]
  decide

end EthdaNode.L1ParallelSync
