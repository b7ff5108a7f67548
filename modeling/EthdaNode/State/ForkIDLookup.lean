import EthdaNode.State.ForkID
import EthdaNode.Support.GoRuntime
import Mathlib.Data.List.MinMax

/-!
# Looking up fork identifiers

The fork of a block or of a batch, from the intervals in memory or, if they are not used, from the
table. The loop for blocks sorts the indices by block number and then takes each index from the end
of the list that is not sorted; the query for batches does not know of the fork upgrade.
-/

namespace EthdaNode.State

open Go List

/-- `ORDER BY fork_id DESC LIMIT 1`. -/
def lastFork (rows : List ForkIDInterval) : Option ForkIDInterval := rows.argmax (·.forkId.toNat)

variable {rows : List ForkIDInterval} {row last : ForkIDInterval}

lemma le_lastFork (hr : row ∈ rows) (hs : lastFork rows = some last) :
    row.forkId ≤ last.forkId := by
  have hl := le_of_mem_argmax hr hs
  exact UInt64.le_iff_toNat_le.mpr hl

def sortIndexForForkdIDSortedByBlockNumber (forkIDs : List ForkIDInterval) : List ℕ :=
  let blockNumber (i : ℕ) := (forkIDs[i]?.map (·.blockNumber)).getD 0
  (List.range forkIDs.length).insertionSort fun i j => blockNumber i ≤ blockNumber j

/-- The intervals in the order of the loop of `GetForkIDByBlockNumberInMemory`. -/
def visited (intervals : List ForkIDInterval) : List ForkIDInterval :=
  (sortIndexForForkdIDSortedByBlockNumber intervals).filterMap fun index =>
    intervals[intervals.length - 1 - index]?

def firstVisited (intervals : List ForkIDInterval) (blockNumber : UInt64) : Option ForkIDInterval :=
  (visited intervals).find? (blockNumber ≥ ·.blockNumber)

def getForkIDByBlockNumberInMemory (intervals : List ForkIDInterval) (blockNumber : UInt64) :
    UInt64 :=
  (firstVisited intervals blockNumber).elim 1 (·.forkId)

def startedBy (table : List ForkIDInterval) (blockNumber : UInt64) : List ForkIDInterval :=
  table.filter (·.blockNumber ≤ blockNumber)

/-- `GetForkIDByBlockNumber` without the intervals in memory; they are used if the query fails. -/
def getForkIDByBlockNumber (intervals table : List ForkIDInterval) (queryFails : Bool)
    (blockNumber : UInt64) : UInt64 :=
  if queryFails then getForkIDByBlockNumberInMemory intervals blockNumber
  else (lastFork (startedBy table blockNumber)).elim 1 (·.forkId)

/-- The lookup returns the fork of the interval with the greatest block number up to the given one,
and so does the query. -/
def FindsForks (intervals : List ForkIDInterval) : Prop :=
  ∀ blockNumber, getForkIDByBlockNumberInMemory intervals blockNumber =
      ((startedBy intervals blockNumber).argmax (·.blockNumber.toNat)).elim 1 (·.forkId) ∧
    ∀ queryFails, getForkIDByBlockNumber intervals intervals queryFails blockNumber =
      getForkIDByBlockNumberInMemory intervals blockNumber

variable {intervals : List ForkIDInterval} {blockNumber : UInt64}

lemma mem_visited : row ∈ visited intervals ↔ row ∈ intervals := by
  simp only [visited, sortIndexForForkdIDSortedByBlockNumber, mem_filterMap,
    mem_insertionSort, mem_range]
  constructor
  · rintro ⟨i, -, hi⟩
    exact mem_of_getElem? hi
  intro hmem
  obtain ⟨k, hk, rfl⟩ := getElem_of_mem hmem
  refine ⟨intervals.length - 1 - k, by omega, ?_⟩
  have hd : intervals.length - 1 - (intervals.length - 1 - k) = k := by omega
  rw [hd, getElem?_eq_getElem hk]

lemma mem_startedBy : row ∈ startedBy rows blockNumber ↔
    row ∈ rows ∧ row.blockNumber ≤ blockNumber := by
  rw [startedBy, mem_filter, decide_eq_true_eq]

/-- The last interval up to a block. -/
lemma of_argmax (h : (startedBy rows blockNumber).argmax (·.blockNumber.toNat) = some last) :
    last ∈ rows ∧ ∀ r ∈ rows, r.blockNumber ≤ blockNumber ↔ r.blockNumber ≤ last.blockNumber := by
  obtain ⟨hmem, hl⟩ := mem_startedBy.mp (argmax_mem h)
  refine ⟨hmem, fun r hr => ⟨fun hs => ?_, fun hs => UInt64.le_trans hs hl⟩⟩
  have hm := le_of_mem_argmax (mem_startedBy.mpr ⟨hr, hs⟩) h
  exact UInt64.le_iff_toNat_le.mpr hm

/-- The intervals, each with the one that has its position from the end of the list. -/
def mirrored (intervals : List ForkIDInterval) : List (ForkIDInterval × ForkIDInterval) :=
  intervals.zip intervals.reverse

/-- The interval starts up to the block, and no other one that does has a mirror with a smaller
block number. -/
def LeastMirror (intervals : List ForkIDInterval) (blockNumber : UInt64)
    (pair : ForkIDInterval × ForkIDInterval) : Prop :=
  pair ∈ mirrored intervals ∧ pair.1.blockNumber ≤ blockNumber ∧
    ∀ other ∈ mirrored intervals, other.1.blockNumber ≤ blockNumber →
      pair.2.blockNumber ≤ other.2.blockNumber

lemma mem_mirrored {pair : ForkIDInterval × ForkIDInterval} : pair ∈ mirrored intervals ↔
    ∃ i < intervals.length, intervals[intervals.length - 1 - i]? = some pair.1 ∧
      intervals[i]? = some pair.2 := by
  rw [mirrored, mem_iff_getElem?]
  constructor
  · rintro ⟨k, hk⟩
    obtain ⟨h₁, h₂⟩ := getElem?_zip_eq_some.mp hk
    have hlt := (List.getElem?_eq_some_iff.mp h₁).1
    rw [getElem?_reverse hlt] at h₂
    refine ⟨intervals.length - 1 - k, by omega, ?_, h₂⟩
    rwa [show intervals.length - 1 - (intervals.length - 1 - k) = k by omega]
  · rintro ⟨i, hi, h₁, h₂⟩
    refine ⟨intervals.length - 1 - i, getElem?_zip_eq_some.mpr ⟨h₁, ?_⟩⟩
    rw [getElem?_reverse (by omega)]
    rwa [show intervals.length - 1 - (intervals.length - 1 - i) = i by omega]

/-- The sorted indices bring the interval with the least mirror first. -/
lemma leastMirror_of_firstVisited (h : firstVisited intervals blockNumber = some row) :
    ∃ mirror, LeastMirror intervals blockNumber (row, mirror) := by
  have hsorted : (sortIndexForForkdIDSortedByBlockNumber intervals).Pairwise fun i j =>
      (intervals[i]?.map (·.blockNumber)).getD 0 ≤ (intervals[j]?.map (·.blockNumber)).getD 0 := by
    have : Std.Total fun i j : ℕ => (intervals[i]?.map (·.blockNumber)).getD 0 ≤
        (intervals[j]?.map (·.blockNumber)).getD 0 := ⟨fun _ _ => UInt64.le_total _ _⟩
    have : IsTrans ℕ fun i j => (intervals[i]?.map (·.blockNumber)).getD 0 ≤
        (intervals[j]?.map (·.blockNumber)).getD 0 := ⟨fun _ _ _ => UInt64.le_trans⟩
    exact pairwise_insertionSort _ _
  rw [firstVisited, visited, find?_filterMap] at h
  obtain ⟨i, hi, hrow⟩ := Option.bind_eq_some_iff.mp h
  obtain ⟨hle, before, after, heq, hno⟩ := find?_eq_some_iff_append.mp hi
  have hmem : ∀ i, i ∈ sortIndexForForkdIDSortedByBlockNumber intervals ↔ i < intervals.length := by
    simp [sortIndexForForkdIDSortedByBlockNumber]
  have hlt := (hmem i).mp (by simp [heq])
  rw [hrow, Option.any_some, decide_eq_true_eq] at hle
  refine ⟨intervals[i], mem_mirrored.mpr ⟨i, hlt, hrow, getElem?_eq_getElem hlt⟩, hle, ?_⟩
  intro other hother hstarts
  obtain ⟨j, hj, h₁, h₂⟩ := mem_mirrored.mp hother
  have hin := (hmem j).mpr hj
  rw [heq] at hin hsorted
  rcases mem_append.mp hin with hbefore | hafter
  · -- an index before it was passed over
    simpa [h₁, hstarts] using hno j hbefore
  rcases mem_cons.mp hafter with rfl | hafter
  · rw [getElem?_eq_getElem hlt] at h₂
    exact Option.some.inj h₂ ▸ UInt64.le_refl _
  · have hrel := (pairwise_cons.mp (pairwise_append.mp hsorted).2.1).1 j hafter
    simpa [h₂, hlt] using hrel

/-- With distinct block numbers there is only one order to sort the indices, and one interval with
the least mirror. -/
lemma firstVisited_of_leastMirror (hnd : (intervals.map (·.blockNumber)).Nodup)
    {pair : ForkIDInterval × ForkIDInterval} (h : LeastMirror intervals blockNumber pair) :
    firstVisited intervals blockNumber = some pair.1 := by
  obtain ⟨hmem, hle, hleast⟩ := h
  obtain ⟨i, hi, h₁, h₂⟩ := mem_mirrored.mp hmem
  rcases hf : firstVisited intervals blockNumber with _ | row
  · have hv := mem_visited.mpr (mem_of_getElem? h₁)
    exact absurd hle (by simpa using find?_eq_none.mp hf _ hv)
  obtain ⟨mirror, hm, hrow, hall⟩ := leastMirror_of_firstVisited hf
  obtain ⟨j, hj, h₃, h₄⟩ := mem_mirrored.mp hm
  have heq := UInt64.le_antisymm (hleast _ hm hrow) (hall _ hmem hle)
  have hsame := inj_on_of_nodup_map hnd (mem_of_getElem? h₂) (mem_of_getElem? h₄) heq
  obtain rfl := (getElem?_inj hi hnd.of_map).mp (h₂.trans (hsame ▸ h₄.symm))
  exact h₃.symm.trans h₁

lemma FindsForks.inMemory_eq {interval : ForkIDInterval} (h : FindsForks intervals)
    (hnd : (intervals.map (·.blockNumber)).Nodup) (hmem : interval ∈ intervals) :
    getForkIDByBlockNumberInMemory intervals interval.blockNumber = interval.forkId := by
  have hst := mem_startedBy.mpr ⟨hmem, UInt64.le_refl interval.blockNumber⟩
  rw [(h interval.blockNumber).1]
  rcases hmx : (startedBy intervals interval.blockNumber).argmax (·.blockNumber.toNat) with _ | last
  · simp [argmax_eq_none.mp hmx] at hst
  obtain ⟨hls, hi⟩ := of_argmax hmx
  have hle := (mem_startedBy.mp (argmax_mem hmx)).2
  have hge := (hi interval hmem).mp (UInt64.le_refl _)
  rw [hmx, inj_on_of_nodup_map hnd hls hmem (UInt64.le_antisymm hle hge)]
  rfl

/-- The loop finds the fork of the last interval up to the block if the least mirror does. -/
lemma inMemory_eq_last {last : ForkIDInterval}
    (hmx : (startedBy intervals blockNumber).argmax (·.blockNumber.toNat) = some last)
    (hleast : ∀ pair, LeastMirror intervals last.blockNumber pair → pair.1.forkId = last.forkId) :
    getForkIDByBlockNumberInMemory intervals blockNumber = last.forkId := by
  obtain ⟨hmem, hi⟩ := of_argmax hmx
  have hsame : firstVisited intervals blockNumber = firstVisited intervals last.blockNumber := by
    rw [firstVisited, firstVisited, ← head?_filter, ← head?_filter]
    congr 1
    exact filter_congr fun r hr => decide_eq_decide.mpr (hi r (mem_visited.mp hr))
  rw [getForkIDByBlockNumberInMemory, hsame]
  cases hfi : firstVisited intervals last.blockNumber with
  | none => simpa using find?_eq_none.mp hfi last (mem_visited.mpr hmem)
  | some first =>
    obtain ⟨mirror, hm⟩ := leastMirror_of_firstVisited hfi
    exact hleast _ hm

/-- The loop finds the forks, and the query does, exactly if up to every interval the one with the
least mirror is of its fork, and the identifiers do not decrease with the block numbers. -/
theorem findsForks_iff (intervals : {l : List ForkIDInterval // (l.map (·.blockNumber)).Nodup}) :
    FindsForks intervals ↔
      (∀ interval ∈ intervals.1, ∀ pair, LeastMirror intervals interval.blockNumber pair →
        pair.1.forkId = interval.forkId) ∧
      ∀ a ∈ intervals.1, ∀ b ∈ intervals.1, a.blockNumber ≤ b.blockNumber →
        a.forkId ≤ b.forkId := by
  obtain ⟨intervals, hnd⟩ := intervals
  constructor
  · refine fun h => ⟨fun interval hmem pair hleast => ?_, fun a ha b hb hle => ?_⟩
    · rw [← h.inMemory_eq hnd hmem, getForkIDByBlockNumberInMemory,
        firstVisited_of_leastMirror hnd hleast]
      rfl
    have hq := (h b.blockNumber).2 false
    rw [h.inMemory_eq hnd hb, getForkIDByBlockNumber, if_neg Bool.false_ne_true] at hq
    have hst := mem_startedBy.mpr ⟨ha, hle⟩
    rcases hls : lastFork (startedBy intervals b.blockNumber) with _ | last
    · simp [argmax_eq_none.mp hls] at hst
    rw [hls] at hq
    exact hq ▸ le_lastFork hst hls
  rintro ⟨hleast, hmono⟩ blockNumber
  rcases hmx : (startedBy intervals blockNumber).argmax (·.blockNumber.toNat) with _ | last
  · have hem := argmax_eq_none.mp hmx
    have hnn : firstVisited intervals blockNumber = none := by
      refine find?_eq_none.mpr fun row hrw hle => ?_
      have hst := mem_startedBy.mpr ⟨mem_visited.mp hrw, of_decide_eq_true hle⟩
      simp [hem] at hst
    simp [getForkIDByBlockNumber, getForkIDByBlockNumberInMemory, hnn, hem, lastFork]
  obtain ⟨hmem, hi⟩ := of_argmax hmx
  have hfn := inMemory_eq_last hmx (hleast last hmem)
  refine ⟨hmx ▸ hfn, fun queryFails => ?_⟩
  cases queryFails with
  | true => rfl
  | false =>
    have hst := argmax_mem hmx
    rw [getForkIDByBlockNumber, if_neg Bool.false_ne_true, hfn]
    cases hq : lastFork (startedBy intervals blockNumber) with
    | none => simp [argmax_eq_none.mp hq] at hst
    | some row =>
      obtain ⟨hrw, hle⟩ := mem_startedBy.mp (argmax_mem hq)
      exact UInt64.le_antisymm (hmono row hrw last hmem ((hi row hrw).mp hle)) (le_lastFork hst hq)

/-- Three intervals that are not in order: at block 30 the loop returns fork 2. -/
theorem not_findsForks_unsorted :
    ¬FindsForks [⟨1, 5, 1, "", 10⟩, ⟨11, 15, 3, "", 30⟩, ⟨6, 10, 2, "", 20⟩] := by
  intro h
  have hf := (h 30).1
  revert hf
  decide

/-! ## Batches -/

/-- `ForkUpgradeBatchNumber` and `ForkUpgradeNewForkId`. -/
structure ForkUpgrade where
  batchNumber : UInt64
  newForkId : UInt64

def orFirst (batchNumber : UInt64) : UInt64 := if batchNumber = 0 then 1 else batchNumber

/-- The upgrade determines the fork of the batch. -/
def ForkUpgrade.Overrides (upgrade : ForkUpgrade) (batchNumber : UInt64) : Prop :=
  upgrade.batchNumber ≠ 0 ∧ batchNumber > upgrade.batchNumber

instance (upgrade : ForkUpgrade) (batchNumber : UInt64) :
    Decidable (upgrade.Overrides batchNumber) := inferInstanceAs (Decidable (_ ∧ _))

instance (interval : ForkIDInterval) (batchNumber : UInt64) :
    Decidable (interval.Has batchNumber) := inferInstanceAs (Decidable (_ ∧ _))

def getForkIDByBatchNumberInMemory (intervals : List ForkIDInterval) (upgrade : ForkUpgrade)
    (batchNumber : UInt64) : Outcome Empty UInt64 :=
  let batchNumber := orFirst batchNumber
  if upgrade.Overrides batchNumber then .ok upgrade.newForkId
  else match (intervals.find? (·.Has batchNumber)).or intervals.getLast? with
    | some interval => .ok interval.forkId
    | none => .panic

/-- What the queries find: the interval of the batch, or the last one. -/
def storedFork (table : List ForkIDInterval) (batchNumber : UInt64) : Option ForkIDInterval :=
  (lastFork (table.filter (·.Has batchNumber))).or (lastFork table)

/-- `GetForkIDByBatchNumber` without the intervals in memory; they are used if a query fails or
the table has no rows. -/
def getForkIDByBatchNumber (intervals : List ForkIDInterval) (upgrade : ForkUpgrade)
    (table : List ForkIDInterval) (queryFails lastQueryFails : Bool) (batchNumber : UInt64) :
    Outcome Empty UInt64 :=
  let batchNumber := orFirst batchNumber
  let inMemory := getForkIDByBatchNumberInMemory intervals upgrade batchNumber
  if queryFails then inMemory
  else match lastFork (table.filter (·.Has batchNumber)), lastFork table with
    | some row, _ => .ok row.forkId
    | none, some row => if lastQueryFails then inMemory else .ok row.forkId
    | none, none => inMemory

/-- Both modes return the same identifier, and it is that of the interval with the batch unless the
upgrade overrides it. -/
structure SameFork (intervals : List ForkIDInterval) (upgrade : ForkUpgrade)
    (batchNumber : UInt64) : Prop where
  modes : ∀ queryFails lastQueryFails,
    getForkIDByBatchNumber intervals upgrade intervals queryFails lastQueryFails batchNumber =
      getForkIDByBatchNumberInMemory intervals upgrade batchNumber
  interval : ¬upgrade.Overrides (orFirst batchNumber) → ∀ interval ∈ intervals,
    interval.Has (orFirst batchNumber) →
      getForkIDByBatchNumberInMemory intervals upgrade batchNumber = .ok interval.forkId

variable {upgrade : ForkUpgrade} {num : UInt64} {interval : ForkIDInterval}

lemma orFirst_orFirst : orFirst (orFirst batchNumber) = orFirst batchNumber := by
  by_cases hz : batchNumber = 0
  · rw [hz]
    rfl
  · rw [orFirst, orFirst, if_neg hz, if_neg hz]

/-- The modes agree if the memory says what the queries find. -/
lemma modes_iff :
    (∀ queryFails lastQueryFails,
    getForkIDByBatchNumber intervals upgrade intervals queryFails lastQueryFails batchNumber =
    getForkIDByBatchNumberInMemory intervals upgrade batchNumber) ↔
    ∀ row ∈ storedFork intervals (orFirst batchNumber),
    getForkIDByBatchNumberInMemory intervals upgrade batchNumber = .ok row.forkId := by
  have hi : getForkIDByBatchNumberInMemory intervals upgrade (orFirst batchNumber) =
      getForkIDByBatchNumberInMemory intervals upgrade batchNumber := by
    simp only [getForkIDByBatchNumberInMemory, orFirst_orFirst]
  simp only [getForkIDByBatchNumber, storedFork, hi]
  cases lastFork (intervals.filter (·.Has (orFirst batchNumber))) <;>
    cases lastFork intervals <;> simp [eq_comm]

lemma WellFormed.eq_of_has (h : WellFormed intervals) (hr : row ∈ intervals) (hmem :
    interval ∈ intervals) (hh : row.Has batchNumber) (hhs : interval.Has batchNumber) :
    row = interval := by
  by_contra hne
  have hs : Std.Symm fun a b : ForkIDInterval => ∀ batchNumber,
      a.Has batchNumber → ¬b.Has batchNumber := ⟨fun _ _ hab n hb ha => hab n ha hb⟩
  exact h.disjoint.forall hr hmem hne batchNumber hh hhs

section
variable (h : WellFormed intervals) (hmem : interval ∈ intervals)
include h hmem

lemma inMemory_of_has (hh : interval.Has (orFirst num)) (hn : ¬upgrade.Overrides (orFirst num)) :
    getForkIDByBatchNumberInMemory intervals upgrade num = .ok interval.forkId := by
  simp only [getForkIDByBatchNumberInMemory, if_neg hn]
  cases hf : intervals.find? (·.Has (orFirst num)) with
  | none => simpa [hh] using find?_eq_none.mp hf interval hmem
  | some found =>
    have hd := find?_some hf
    rw [h.eq_of_has (mem_of_find?_eq_some hf) hmem (of_decide_eq_true hd) hh, Option.some_or]

lemma eq_of_storedFork (hh : interval.Has num) (hs : storedFork intervals num = some row) :
    row = interval := by
  have hf : interval ∈ intervals.filter (·.Has num) := by simpa using ⟨hmem, hh⟩
  rcases hl : lastFork (intervals.filter (·.Has num)) with _ | last
  · simp [argmax_eq_none.mp hl] at hf
  rw [storedFork, hl] at hs
  cases hs
  have hr := argmax_mem hl
  rw [mem_filter, decide_eq_true_eq] at hr
  exact h.eq_of_has hr.1 hmem hr.2 hh

end

lemma exists_storedFork (num : UInt64) (hmem : interval ∈ intervals) :
    ∃ row, storedFork intervals num = some row := by
  cases hl : lastFork intervals with
  | none => simp [argmax_eq_none.mp hl] at hmem
  | some row => cases hf : lastFork (intervals.filter (·.Has num)) <;> simp [storedFork, hl, hf]

lemma storedFork_of_not_has (hno : ∀ interval ∈ intervals, ¬interval.Has num) :
    storedFork intervals num = lastFork intervals := by
  have hf : intervals.filter (·.Has num) = [] :=
    filter_eq_nil_iff.mpr fun row hr => by simpa using hno row hr
  rw [storedFork, hf]
  rfl

/-- What the queries find is the interval of the batch, or else one of the greatest identifier. -/
lemma storedFork_iff (h : WellFormed intervals) (P : UInt64 → Prop) :
    (∀ row ∈ storedFork intervals num, P row.forkId) ↔
      (∀ interval ∈ intervals, interval.Has num → P interval.forkId) ∧
      ((∀ interval ∈ intervals, ¬interval.Has num) → ∀ interval ∈ intervals,
        (∀ other ∈ intervals, other.forkId ≤ interval.forkId) → P interval.forkId) := by
  constructor
  · intro hp
    refine ⟨fun interval hmem hhas => ?_, fun hno interval hmem hmax => ?_⟩
    · obtain ⟨row, hrow⟩ := exists_storedFork num hmem
      exact eq_of_storedFork h hmem hhas hrow ▸ hp row hrow
    obtain ⟨row, hrow⟩ := exists_storedFork num hmem
    have hlast := storedFork_of_not_has hno ▸ hrow
    rw [← UInt64.le_antisymm (hmax row (argmax_mem hlast)) (le_lastFork hmem hlast)]
    exact hp row hrow
  · rintro ⟨hhas, hmax⟩ row hrow
    by_cases hex : ∃ interval ∈ intervals, interval.Has num
    · obtain ⟨interval, hmem, hi⟩ := hex
      exact eq_of_storedFork h hmem hi hrow ▸ hhas interval hmem hi
    have hno : ∀ interval ∈ intervals, ¬interval.Has num := fun i hi hh => hex ⟨i, hi, hh⟩
    have hlast := storedFork_of_not_has hno ▸ hrow
    exact hmax hno row (argmax_mem hlast) fun other ho => le_lastFork ho hlast

/-- The modes agree exactly if the table has the fork of an upgrade that overrides it, in the
interval of the batch or else in the one of the greatest identifier, and without an upgrade, for a
batch that is in no interval, the last interval has the greatest identifier. -/
theorem sameFork_iff (intervals : {l : List ForkIDInterval // WellFormed l})
    (upgrade : ForkUpgrade) (batchNumber : UInt64) :
    SameFork intervals upgrade batchNumber ↔
      (upgrade.Overrides (orFirst batchNumber) →
        (∀ interval ∈ intervals.1, interval.Has (orFirst batchNumber) →
          interval.forkId = upgrade.newForkId) ∧
        ((∀ interval ∈ intervals.1, ¬interval.Has (orFirst batchNumber)) →
          ∀ interval ∈ intervals.1, (∀ other ∈ intervals.1, other.forkId ≤ interval.forkId) →
            interval.forkId = upgrade.newForkId)) ∧
      (¬upgrade.Overrides (orFirst batchNumber) →
        (∀ interval ∈ intervals.1, ¬interval.Has (orFirst batchNumber)) →
          ∀ last ∈ intervals.1.getLast?, ∀ interval ∈ intervals.1,
            interval.forkId ≤ last.forkId) := by
  obtain ⟨intervals, h⟩ := intervals
  have hsame : SameFork intervals upgrade batchNumber ↔
      ∀ row ∈ storedFork intervals (orFirst batchNumber),
      getForkIDByBatchNumberInMemory intervals upgrade batchNumber = .ok row.forkId := by
    rw [← modes_iff]
    exact ⟨SameFork.modes, fun hmodes => ⟨hmodes, fun hno _ hmem hhas =>
      inMemory_of_has h hmem hhas hno⟩⟩
  rw [hsame, storedFork_iff h fun forkId =>
    getForkIDByBatchNumberInMemory intervals upgrade batchNumber = .ok forkId]
  by_cases ho : upgrade.Overrides (orFirst batchNumber)
  · have hnew : getForkIDByBatchNumberInMemory intervals upgrade batchNumber =
        .ok upgrade.newForkId := if_pos ho
    simp [ho, hnew, eq_comm]
  simp only [ho, not_false_eq_true, true_implies, false_implies, true_and]
  refine (and_iff_right fun interval hmem hhas => inMemory_of_has h hmem hhas ho).trans ?_
  refine forall_congr' fun hno => ?_
  have hfind : intervals.find? (·.Has (orFirst batchNumber)) = none :=
    find?_eq_none.mpr fun row hr => by simpa using hno row hr
  simp only [getForkIDByBatchNumberInMemory, if_neg ho, hfind, Option.none_or]
  rcases hlast : intervals.getLast? with _ | last
  · simp [getLast?_eq_none_iff.mp hlast]
  have hmem : last ∈ intervals := mem_of_getLast? hlast
  constructor
  · rintro hall _ ⟨⟩ interval hi
    obtain ⟨row, hrow⟩ := exists_storedFork (orFirst batchNumber) hmem
    have hrow := storedFork_of_not_has hno ▸ hrow
    have heq := Outcome.ok.inj (hall row (argmax_mem hrow) fun _ hr => le_lastFork hr hrow)
    exact heq ▸ le_lastFork hi hrow
  · intro hmax interval hi hge
    exact congrArg _ (UInt64.le_antisymm (hge last hmem) (hmax last rfl interval hi))

/-- After the upgrade at batch 5 the memory says fork 9, the table still fork 1. -/
theorem not_sameFork_upgrade : ∃ intervals : {l : List ForkIDInterval // WellFormed l},
    ¬SameFork intervals ⟨5, 9⟩ 6 := by
  refine ⟨⟨[⟨1, 10, 1, "", 0⟩], wf_of_isChain (isChain_singleton _)
    (pairwise_singleton _ _)⟩, fun h => ?_⟩
  have hmd := h.modes false false
  revert hmd
  decide

end EthdaNode.State
