import Mathlib.Data.List.Chain
import Mathlib.Data.List.Sort

/-!
# The intervals of the fork identifiers

The storage keeps the intervals of batch numbers of the forks in memory and in a table whose
key is the identifier of the fork. `AddForkIDInterval` ends the last interval before the new
one. It reads the table, sets the memory, and only then inserts the row; nothing sets the
memory back when the insert fails or when the transaction around the call is rolled back.
-/

namespace EthdaNode.State

open List

structure ForkIDInterval where
  fromBatchNumber : UInt64
  toBatchNumber : UInt64
  forkId : UInt64
  version : String
  blockNumber : UInt64
  deriving DecidableEq

/-! ## The table -/

/-- What becomes of the query for all rows. `GetForkIDs` does not look at `rows.Err()`: a lost
connection ends the loop without an error. -/
inductive Reading where
  | err
  | all
  | upTo (n : ℕ)
  deriving DecidableEq

inductive ForkIDError where
  | storage
  | sequence (errMsg : String)
  deriving DecidableEq

/-- The error for an identifier that is not greater than the last one. -/
def ForkIDError.notInSequence (last new : UInt64) : ForkIDError :=
  .sequence (s!"error checking forkID sequence. Last ForkID stored: {last}. " ++
    s!"New ForkID received: {new}")

def sortedByBatch (table : List ForkIDInterval) : List ForkIDInterval :=
  table.insertionSort fun a b => a.fromBatchNumber ≤ b.fromBatchNumber

def getForkIDs (table : List ForkIDInterval) : Reading → Except ForkIDError (List ForkIDInterval)
  | .err => .error .storage
  | .all => .ok (sortedByBatch table)
  | .upTo n => .ok ((sortedByBatch table).take n)

/-- `AddForkID`: for an identifier that the table has, only the block number is stored. -/
def addForkID (table : List ForkIDInterval) (forkID : ForkIDInterval) : List ForkIDInterval :=
  if table.any (·.forkId = forkID.forkId) then
    table.map fun row =>
      if row.forkId = forkID.forkId then { row with blockNumber := forkID.blockNumber } else row
  else table ++ [forkID]

def updateForkIDToBatchNumber (table : List ForkIDInterval) (forkID : ForkIDInterval) :
    List ForkIDInterval :=
  table.map fun row =>
    if row.forkId = forkID.forkId then { row with toBatchNumber := forkID.toBatchNumber } else row

/-- `PostgresStorage`: the intervals in memory, the committed table, and the one the open
transaction sees. -/
structure ForkStorage where
  forkIDIntervals : List ForkIDInterval
  committed : List ForkIDInterval
  dbTx : Option (List ForkIDInterval)
  deriving DecidableEq

/-- What the calls of `AddForkIDInterval` to the database answer. -/
structure ForkAnswers where
  getForkIDs : Reading
  updateForkIDToBatchNumber : Bool
  addForkID : Bool

namespace ForkStorage

variable (s : ForkStorage)

def table : List ForkIDInterval := s.dbTx.getD s.committed

def setTable (table : List ForkIDInterval) : ForkStorage :=
  match s.dbTx with
  | some _ => { s with dbTx := some table }
  | none => { s with committed := table }

def updateForkIDIntervalsInMemory (intervals : List ForkIDInterval) : ForkStorage :=
  { s with forkIDIntervals := intervals }

def storeForkID (newForkID : ForkIDInterval) (answers : ForkAnswers) :
    ForkStorage × Except ForkIDError Unit :=
  if answers.addForkID then (s.setTable (EthdaNode.State.addForkID s.table newForkID), .ok ())
  else (s, .error .storage)

def endBefore (last newForkID : ForkIDInterval) : ForkIDInterval :=
  { last with toBatchNumber := newForkID.fromBatchNumber - 1 }

/-- `AddForkIDInterval`: the storage afterwards, and what is returned. -/
def addForkIDInterval (newForkID : ForkIDInterval) (answers : ForkAnswers) :
    ForkStorage × Except ForkIDError Unit :=
  match getForkIDs s.table answers.getForkIDs with
  | .error e => (s, .error e)
  | .ok oldForkIDs =>
    match oldForkIDs.getLast? with
    | none => (s.updateForkIDIntervalsInMemory [newForkID]).storeForkID newForkID answers
    | some last =>
      if last.forkId ≥ newForkID.forkId then
        (s, .error (.notInSequence last.forkId newForkID.forkId))
      else if answers.updateForkIDToBatchNumber then
        ((s.setTable (updateForkIDToBatchNumber s.table (endBefore last newForkID))
          ).updateForkIDIntervalsInMemory
            (oldForkIDs.dropLast ++ [endBefore last newForkID] ++ [newForkID])).storeForkID
          newForkID answers
      else (s, .error .storage)

end ForkStorage

open ForkStorage

inductive ForkEvent where
  | beginTx
  | addForkIDInterval (newForkID : ForkIDInterval) (answers : ForkAnswers)
  | commit (succeeds : Bool)
  | rollback

def ForkStorage.step (s : ForkStorage) : ForkEvent → ForkStorage
  | .beginTx => { s with dbTx := some s.table }
  | .addForkIDInterval newForkID answers => (s.addForkIDInterval newForkID answers).1
  | .commit true => { s with committed := s.table, dbTx := none }
  | .commit false => { s with dbTx := none }
  | .rollback => { s with dbTx := none }

/-! ## Lists of intervals -/

def ForkIDInterval.Has (interval : ForkIDInterval) (batchNumber : UInt64) : Prop :=
  interval.fromBatchNumber ≤ batchNumber ∧ batchNumber ≤ interval.toBatchNumber

/-- The intervals follow one another without gaps, and no batch is in two of them. -/
structure WellFormed (intervals : List ForkIDInterval) : Prop where
  contiguous : intervals.IsChain fun a b =>
    a.toBatchNumber.toNat + 1 = b.fromBatchNumber.toNat
  increasing : intervals.Pairwise fun a b => a.fromBatchNumber < b.fromBatchNumber
  disjoint : intervals.Pairwise fun a b => ∀ batchNumber, a.Has batchNumber → ¬b.Has batchNumber

def Before (a b : ForkIDInterval) : Prop :=
  a.fromBatchNumber < b.fromBatchNumber ∧ a.toBatchNumber < b.fromBatchNumber

variable {a b : ForkIDInterval}

lemma Before.trans {c : ForkIDInterval} (ha : Before a b) (hb : Before b c) : Before a c :=
  ⟨UInt64.lt_trans ha.1 hb.1, UInt64.lt_trans ha.2 hb.1⟩

instance : Trans Before Before Before := ⟨Before.trans⟩

lemma Before.not_has (h : Before a b) {num : UInt64} (ha : a.Has num) : ¬b.Has num := by
  intro hb
  exact UInt64.not_le.mpr h.2 (UInt64.le_trans hb.1 ha.2)

variable {intervals : List ForkIDInterval}

lemma wf_of_isChain
    (hc : intervals.IsChain fun a b => a.toBatchNumber.toNat + 1 = b.fromBatchNumber.toNat)
    (hin : intervals.Pairwise fun a b => a.fromBatchNumber < b.fromBatchNumber) : WellFormed
    intervals := by
  have hb : intervals.IsChain Before := by
    rw [isChain_iff_getElem] at hc ⊢
    intro i hi
    have hn := hc i hi
    refine ⟨pairwise_iff_getElem.mp hin i (i + 1) _ hi i.lt_succ_self, ?_⟩
    rw [UInt64.lt_iff_toNat_lt]
    omega
  exact ⟨hc, hin, hb.pairwise.imp fun h _ => h.not_has⟩

lemma pairwise_sortedByBatch (table : List ForkIDInterval) :
    (sortedByBatch table).Pairwise fun a b => a.fromBatchNumber ≤ b.fromBatchNumber := by
  have htt : Std.Total fun a b : ForkIDInterval => a.fromBatchNumber ≤ b.fromBatchNumber :=
    ⟨fun a b => UInt64.le_total a.fromBatchNumber b.fromBatchNumber⟩
  have ht : IsTrans ForkIDInterval fun a b => a.fromBatchNumber ≤ b.fromBatchNumber :=
    ⟨fun _ _ _ ha hb => UInt64.le_trans ha hb⟩
  exact pairwise_insertionSort _ table

lemma eq_of_fromBatchNum_eq
    (hn : intervals.Pairwise fun a b => a.fromBatchNumber < b.fromBatchNumber) (ha : a ∈ intervals)
    (hb : b ∈ intervals) (he : a.fromBatchNumber = b.fromBatchNumber) : a = b := by
  obtain ⟨i, hi, rfl⟩ := getElem_of_mem ha
  obtain ⟨j, hj, rfl⟩ := getElem_of_mem hb
  have hl := pairwise_iff_getElem.mp hn
  rcases lt_trichotomy i j with hij | rfl | hij
  · have h := hl i j hi hj hij
    rw [he] at h
    exact absurd h (UInt64.lt_irrefl _)
  · rfl
  have h := hl j i hj hi hij
  rw [he] at h
  exact absurd h (UInt64.lt_irrefl _)

lemma sortedByBatch_eq_of_perm {table ivs : List ForkIDInterval} (hp : table.Perm ivs)
    (hi : ivs.Pairwise fun a b => a.fromBatchNumber < b.fromBatchNumber) :
    sortedByBatch table = ivs := by
  have hperm' : (sortedByBatch table).Perm ivs := (perm_insertionSort _ table).trans hp
  refine Perm.eq_of_pairwise (fun a b ha hb hab hba => ?_) (pairwise_sortedByBatch table)
    (hi.imp fun h => UInt64.le_of_lt h) hperm'
  exact eq_of_fromBatchNum_eq hi (hperm'.mem_iff.mp ha) hb (UInt64.le_antisymm hab hba)

/-- The new interval starts after the others, and its identifier is not in the table. -/
def Fits (table : List ForkIDInterval) (newForkID : ForkIDInterval) : Prop :=
  ∀ row ∈ table, row.fromBatchNumber < newForkID.fromBatchNumber ∧ row.forkId ≠ newForkID.forkId

variable {fk : ForkIDInterval}

lemma addForkID_of_fits {table : List ForkIDInterval} (hf : Fits table fk) :
    addForkID table fk = table ++ [fk] := by
  rw [addForkID, if_neg]
  intro ha
  obtain ⟨row, hr, hi⟩ := any_eq_true.mp ha
  exact (hf row hr).2 (of_decide_eq_true hi)

variable {last : ForkIDInterval}

lemma updateForkIDToBatchNum_concat {init : List ForkIDInterval}
    {fid : ForkIDInterval} (hn : ((init ++ [last]).map (·.forkId)).Nodup)
    (hi : fid.forkId = last.forkId) :
    updateForkIDToBatchNumber (init ++ [last]) fid =
    init ++ [{ last with toBatchNumber := fid.toBatchNumber }] := by
  rw [updateForkIDToBatchNumber, map_append, map_singleton, if_pos hi.symm]
  congr 1
  rw [map_append, nodup_append] at hn
  refine (map_congr_left (g := id) fun row hr => if_neg fun he => ?_).trans (map_id _)
  exact hn.2.2 row.forkId (mem_map_of_mem hr) last.forkId (mem_singleton.mpr rfl) (he.trans hi)

/-- The new list has no gap, even though the end is computed in machine integers. -/
lemma WellFormed.concat {init : List ForkIDInterval} (h : WellFormed (init ++ [last]))
    (hl : last.fromBatchNumber < fk.fromBatchNumber) :
    WellFormed (init ++ [endBefore last fk] ++ [fk]) := by
  obtain ⟨hi, -, hla⟩ := isChain_append.mp h.contiguous
  obtain ⟨hn, -, hs⟩ := pairwise_append.mp h.increasing
  refine wf_of_isChain ?_ ?_
  · refine (hi.append (isChain_singleton _) ?_).append (isChain_singleton _) ?_
    · rintro a ha b hb
      cases hb
      exact hla a ha last rfl
    rintro a ha b hb
    rw [getLast?_concat] at ha
    cases ha
    cases hb
    rw [UInt64.lt_iff_toNat_lt] at hl
    have ho : (1 : UInt64) ≤ fk.fromBatchNumber := by
      rw [UInt64.le_iff_toNat_le]
      exact Nat.one_le_iff_ne_zero.mpr (Nat.ne_zero_of_lt hl)
    have ht : (fk.fromBatchNumber - 1).toNat = fk.fromBatchNumber.toNat - 1 :=
      UInt64.toNat_sub_of_le _ _ ho
    change (fk.fromBatchNumber - 1).toNat + 1 = _
    omega
  · rw [pairwise_append, pairwise_append]
    refine ⟨⟨hn, pairwise_singleton _ _, ?_⟩, pairwise_singleton _ _, ?_⟩
    · rintro a ha b hb
      obtain rfl := mem_singleton.mp hb
      exact hs a ha last (mem_singleton.mpr rfl)
    rintro a ha b hb
    obtain rfl := mem_singleton.mp hb
    rcases mem_append.mp ha with ha | ha
    · exact UInt64.lt_trans (hs a ha last (mem_singleton.mpr rfl)) hl
    · obtain rfl := mem_singleton.mp ha
      exact hl

/-! ## Steps -/

namespace ForkStorage

variable {s : ForkStorage} {fk : ForkIDInterval} {ans : ForkAnswers}

@[simp]
lemma table_setTable (s : ForkStorage) (rows : List ForkIDInterval) :
    (s.setTable rows).table = rows := by
  cases hd : s.dbTx with
  | none =>
    rw [setTable, hd, table]
    simp only [Option.getD_none]
  | some _ => rw [setTable, hd, table, Option.getD_some]

@[simp]
lemma intervals_setTable (s : ForkStorage) (rows : List ForkIDInterval) :
    (s.setTable rows).forkIDIntervals = s.forkIDIntervals := by
  cases hd : s.dbTx with
  | _ => rw [setTable, hd]

structure Inv (s : ForkStorage) : Prop where
  memory : s.forkIDIntervals = sortedByBatch s.table
  wellFormed : WellFormed (sortedByBatch s.table)
  nodup : (s.table.map (·.forkId)).Nodup

def Rejects (table : List ForkIDInterval) (newForkID : ForkIDInterval) : Prop :=
  ∃ last ∈ (sortedByBatch table).getLast?, last.forkId ≥ newForkID.forkId

/-- A call gets all rows, and the new interval is rejected or fits and is inserted, unless an
earlier statement fails. A transaction that is not committed has not changed the table. -/
def Careful (s : ForkStorage) : ForkEvent → Prop
  | .addForkIDInterval newForkID answers =>
    answers.getForkIDs = .err ∨ answers.getForkIDs = .all ∧ (Rejects s.table newForkID ∨
          (s.table ≠ [] ∧ answers.updateForkIDToBatchNumber = false) ∨
          (answers.addForkID = true ∧ Fits s.table newForkID))
  | .commit false => s.table = s.committed
  | .rollback => s.table = s.committed
  | _ => True

/-- After an event the intervals are in order and those of the table, after a rollback of the
committed one, and an error leaves them as they are. -/
def Intact (s : ForkStorage) : ForkEvent → Prop
  | .addForkIDInterval newForkID answers =>
    WellFormed (s.addForkIDInterval newForkID answers).1.forkIDIntervals ∧
      (s.addForkIDInterval newForkID answers).1.forkIDIntervals =
        sortedByBatch (s.addForkIDInterval newForkID answers).1.table ∧
      ∀ e, (s.addForkIDInterval newForkID answers).2 = .error e →
        (s.addForkIDInterval newForkID answers).1.forkIDIntervals = s.forkIDIntervals
  | .commit false => s.forkIDIntervals = sortedByBatch s.committed
  | .rollback => s.forkIDIntervals = sortedByBatch s.committed
  | _ => True

lemma perm_sortedByBatch (rows : List ForkIDInterval) : rows.Perm (sortedByBatch rows) :=
  (perm_insertionSort _ rows).symm

lemma fits_updateForkIDToBatchNum {rows : List ForkIDInterval} {fid : ForkIDInterval}
    (hf : Fits rows fk) : Fits (updateForkIDToBatchNumber rows fid) fk := by
  intro row ho
  obtain ⟨row', hr, rfl⟩ := mem_map.mp ho
  split_ifs
  · exact hf row' hr
  · exact hf row' hr

lemma Inv.store (hi : s.Inv) (hf : Fits s.table fk) {init : List ForkIDInterval}
    (hs : sortedByBatch s.table = init ++ [last]) {s' : ForkStorage} (hm : s'.forkIDIntervals =
    init ++ [endBefore last fk] ++ [fk]) (ht : s'.table =
    addForkID (updateForkIDToBatchNumber s.table (endBefore last fk)) fk) : s'.Inv := by
  have hp : s.table.Perm (init ++ [last]) := hs ▸ perm_sortedByBatch s.table
  have hn : ((init ++ [last]).map (·.forkId)).Nodup := (hp.map _).nodup_iff.mp hi.nodup
  have hl : last ∈ s.table := hp.mem_iff.mpr (mem_append_right _ (.head _))
  have hw : WellFormed (init ++ [endBefore last fk] ++ [fk]) :=
    WellFormed.concat (hs ▸ hi.wellFormed) (hf last hl).1
  have hr : s'.table.Perm (init ++ [endBefore last fk] ++ [fk]) := by
    rw [ht, addForkID_of_fits (fits_updateForkIDToBatchNum hf)]
    refine Perm.append_right _ ((hp.map _).trans (Perm.of_eq ?_))
    exact updateForkIDToBatchNum_concat hn rfl
  have hsort' := sortedByBatch_eq_of_perm hr hw.increasing
  refine ⟨hm.trans hsort'.symm, hsort'.symm ▸ hw, ?_⟩
  have his : (init ++ [endBefore last fk] ++ [fk]).map (·.forkId) =
      (init ++ [last]).map (·.forkId) ++ [fk.forkId] := by
    simp only [map_append, map_singleton, endBefore]
  refine (hr.map _).nodup_iff.mpr ?_
  rw [his, nodup_append]
  refine ⟨hn, nodup_singleton _, fun id hd id' hid' => ?_⟩
  obtain ⟨row, ho, rfl⟩ := mem_map.mp hd
  obtain rfl := mem_singleton.mp hid'
  exact (hf row (hp.mem_iff.mpr ho)).2

lemma inv_singleton {s' : ForkStorage} (hm : s'.forkIDIntervals = [fk])
    (ht : s'.table = [fk]) : s'.Inv := by
  have hs : sortedByBatch s'.table = [fk] := by
    rw [ht]
    rfl
  refine ⟨hm.trans hs.symm, ?_, ?_⟩
  · rw [hs]
    exact wf_of_isChain (isChain_singleton _) (pairwise_singleton _ _)
  · rw [ht]
    exact nodup_singleton _

/-- What a call can do: nothing with an error, or add the interval to the memory and to the
table. -/
lemma Inv.addForkIDInterval_cases (hi : s.Inv) (hcr : s.Careful (.addForkIDInterval fk ans)) :
    (∃ e, s.addForkIDInterval fk ans = (s, .error e)) ∨
    ((s.addForkIDInterval fk ans).2 = .ok () ∧ (s.addForkIDInterval fk ans).1.Inv) := by
  rcases hcr with her | ⟨hal, hc⟩
  · refine .inl ⟨.storage, ?_⟩
    rw [addForkIDInterval, her]
    rfl
  rw [addForkIDInterval, hal, getForkIDs]
  rcases hl : (sortedByBatch s.table).getLast? with _ | last
  · have he : s.table = [] := by
      have hp := perm_sortedByBatch s.table
      rw [getLast?_eq_none_iff.mp hl] at hp
      exact hp.eq_nil
    have ha : ans.addForkID = true := by
      rcases hc with ⟨last, hm, -⟩ | ⟨hn, -⟩ | ⟨ha, -⟩
      · rw [hl] at hm
        cases hm
      · exact absurd he hn
      · exact ha
    simp only [hl, storeForkID, ha, if_true]
    refine .inr ⟨trivial, inv_singleton (intervals_setTable _ _) ?_⟩
    have ht : (s.updateForkIDIntervalsInMemory [fk]).table = [] := he
    rw [table_setTable, ht]
    rfl
  obtain ⟨init, hs⟩ := getLast?_eq_some_iff.mp hl
  simp only [hl]
  split_ifs with hr hu
  · exact .inl ⟨_, rfl⟩
  · obtain ⟨ha, hf⟩ : ans.addForkID = true ∧ Fits s.table fk := by
      rcases hc with ⟨last', hm, hg⟩ | ⟨-, hfl⟩ | hf
      · obtain rfl := Option.mem_unique hl hm
        exact absurd hg hr
      · rw [hfl] at hu
        cases hu
      · exact hf
    rw [storeForkID, if_pos ha]
    refine .inr ⟨rfl, hi.store hf hs ?_ ?_⟩
    · rw [intervals_setTable, hs, dropLast_concat]
      rfl
    · rw [table_setTable]
      exact congrArg (addForkID · fk) (table_setTable _ _)
  · exact .inl ⟨_, rfl⟩

lemma Inv.dropTx (hi : s.Inv) (hc : s.table = s.committed) :
    { s with dbTx := none }.Inv ∧ s.forkIDIntervals = sortedByBatch s.committed := by
  rw [← hc]
  refine ⟨⟨?_, ?_, ?_⟩, hi.memory⟩
  · exact hc ▸ hi.memory
  · exact hc ▸ hi.wellFormed
  · exact hc ▸ hi.nodup

lemma Inv.step (hi : s.Inv) {event : ForkEvent} (hc : s.Careful event) :
    (s.step event).Inv ∧ s.Intact event := by
  cases event with
  | beginTx => exact ⟨⟨hi.memory, hi.wellFormed, hi.nodup⟩, trivial⟩
  | addForkIDInterval fk ans =>
    rw [ForkStorage.step, Intact]
    obtain ⟨e, hq⟩ | ⟨ho, hv⟩ := hi.addForkIDInterval_cases hc
    · rw [hq]
      exact ⟨hi, hi.memory ▸ hi.wellFormed, hi.memory, fun _ _ => rfl⟩
    · refine ⟨hv, hv.memory ▸ hv.wellFormed, hv.memory, fun e he => ?_⟩
      cases ho.symm.trans he
  | commit succeeds =>
    cases succeeds with
    | true => exact ⟨⟨hi.memory, hi.wellFormed, hi.nodup⟩, trivial⟩
    | false => exact hi.dropTx hc
  | rollback => exact hi.dropTx hc

def Along (P : ForkStorage → ForkEvent → Prop) : ForkStorage → List ForkEvent → Prop
  | _, [] => True
  | s, event :: events => P s event ∧ Along P (s.step event) events

/-- At the start, the memory has the rows of the table, in order. -/
structure Started (s : ForkStorage) : Prop where
  dbTx : s.dbTx = none
  wellFormed : WellFormed s.forkIDIntervals
  committed : s.committed.Perm s.forkIDIntervals
  nodup : (s.committed.map (·.forkId)).Nodup

lemma Started.inv (hs : s.Started) : s.Inv := by
  have ht : s.table = s.committed := by rw [table, hs.dbTx, Option.getD_none]
  have hr : sortedByBatch s.table = s.forkIDIntervals := by
    rw [ht]
    exact sortedByBatch_eq_of_perm hs.committed hs.wellFormed.increasing
  exact ⟨hr.symm, hr ▸ hs.wellFormed, ht ▸ hs.nodup⟩

lemma Inv.along (hi : s.Inv) {events : List ForkEvent} (hc : s.Along Careful events) :
    s.Along Intact events := by
  induction events generalizing s with
  | nil => trivial
  | cons event events ih =>
    obtain ⟨hn, ht⟩ := hi.step hc.1
    exact ⟨ht, ih hn hc.2⟩

/-- In a run of careful events, the intervals in memory stay in order and in step with the
table. -/
theorem intact_of_careful (hs : s.Started) {events : List ForkEvent}
    (hcare : s.Along Careful events) : s.Along Intact events :=
  hs.inv.along hcare

end ForkStorage

def openInterval (fromBatchNumber forkId : UInt64) : ForkIDInterval :=
  ⟨fromBatchNumber, 0xffffffffffffffff, forkId, "", 0⟩

def forkFive : ForkStorage := ⟨[openInterval 1 5], [openInterval 1 5], none⟩

def forkSevenFive : ForkStorage :=
  ⟨[⟨1, 9, 7, "", 0⟩, openInterval 10 5], [⟨1, 9, 7, "", 0⟩, openInterval 10 5], none⟩

lemma started_forkFive : forkFive.Started :=
  ⟨rfl, wf_of_isChain (isChain_singleton _) (pairwise_singleton _ _), .refl _, nodup_singleton _⟩

lemma started_forkSevenFive : forkSevenFive.Started :=
  ⟨rfl, wf_of_isChain (by decide) (by decide), .refl _, by decide⟩

/-- The memory is wrong after a failed insert, a rollback, a new interval from batch 0, a loop over
the rows that ends early, and an identifier that an earlier interval has. -/
theorem forkIDIntervals_not_intact : (forkFive.Started ∧ forkSevenFive.Started) ∧ ¬forkFive.Along
    Intact [.addForkIDInterval (openInterval 10 6) ⟨.all, true, false⟩] ∧ ¬forkFive.Along Intact
    [.beginTx, .addForkIDInterval (openInterval 10 6) ⟨.all, true, true⟩, .rollback] ∧
    ¬forkFive.Along Intact [.addForkIDInterval (openInterval 0 6) ⟨.all, true, true⟩] ∧
    ¬forkFive.Along Intact [.addForkIDInterval (openInterval 10 6) ⟨.upTo 0, true, true⟩] ∧
    ¬forkSevenFive.Along Intact [.addForkIDInterval (openInterval 20 7) ⟨.all, true, true⟩] := by
  refine ⟨⟨started_forkFive, started_forkSevenFive⟩, ?_, ?_, ?_, ?_, ?_⟩
  · intro h
    exact absurd (h.1.2.2 _ rfl) (by decide)
  · intro h
    exact absurd h.2.2.1 (by rw [Intact]; decide)
  · intro h
    exact absurd h.1.1.increasing (by decide)
  · intro h
    exact absurd h.1.2.1 (by decide)
  · intro h
    exact absurd h.1.2.1 (by decide)

/-- Fork 6 is added and committed, a second call is rejected and its transaction rolled back. -/
theorem intact_of_careful_forkFive : forkFive.Along Intact
    [.beginTx, .addForkIDInterval (openInterval 10 6) ⟨.all, true, true⟩, .commit true,
    .beginTx, .addForkIDInterval (openInterval 20 6) ⟨.all, true, true⟩, .rollback] := by
  refine intact_of_careful started_forkFive ?_
  refine ⟨trivial, ?_, trivial, trivial, ?_, ?_, trivial⟩
  · exact .inr ⟨rfl, .inr (.inr ⟨rfl, by unfold Fits; decide⟩)⟩
  · exact .inr ⟨rfl, .inl ⟨openInterval 10 6, by decide, by decide⟩⟩
  · rw [Careful]
    decide

end EthdaNode.State
