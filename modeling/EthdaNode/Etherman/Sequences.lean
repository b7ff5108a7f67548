import EthdaNode.Synchronizer.SequenceBatches

/-!
# The data of sequenced batches

A call of `sequenceBatches` has only the hashes of the batches. `decodeSequencedBatches` gets the
data of the regular batches from the data availability layer, and that of the forced batches from
the state.
-/

namespace EthdaNode.Etherman

open Go Go.Outcome State List
open L1InfoTree (zeroHash)
open Sequencer (Hash plainHash)
open Synchronizer (SequencedBatch EtrogBatchData)

structure Sequence where
  batchL2Data : List UInt8
  globalExitRoot : Hash
  forcedBatchTimestamp : Int64
  prevBlockHash : Hash

structure ValidiumBatchData where
  transactionsHash : Hash
  forcedGlobalExitRoot : Hash
  forcedTimestamp : UInt64
  forcedBlockHashL1 : Hash

def sequenceBatches (keccak : List UInt8 → Hash) (sequences : List Sequence) :
    List ValidiumBatchData :=
  sequences.map fun seq =>
    { transactionsHash := keccak seq.batchL2Data
      forcedGlobalExitRoot :=
        if (0 : Int64) < seq.forcedBatchTimestamp then seq.globalExitRoot else zeroHash
      forcedTimestamp := seq.forcedBatchTimestamp.toUInt64
      forcedBlockHashL1 := seq.prevBlockHash }

variable (lastBatchNumber ln lb : UInt64)

def numbered {α : Type} (xs : List α) : List (UInt64 × α) :=
  xs.mapIdx fun i x => (lastBatchNumber - UInt64.ofNat (xs.length - (i + 1)), x)

structure BatchInfo where
  num : UInt64
  hash : Hash
  isForced : Bool

def batchInfos (batches : List ValidiumBatchData) : List BatchInfo :=
  (numbered lastBatchNumber batches).map fun x =>
    ⟨x.1, x.2.transactionsHash, x.2.forcedTimestamp > 0⟩

inductive RetrieveError where
  | dataAvailability
  | notAllData (expected got : ℕ)
  | state
  | missingForcedBatchData (num : UInt64)
  | wrongHash (num : UInt64)
  deriving DecidableEq

/-! ## The state -/

/-- The tables with batch data, and what `convert_from(…, 'UTF8')::bytea` makes of the raw data of
a forced batch. -/
structure BatchTables where
  forcedBatch : List (UInt64 × List UInt8)
  batchDataBackup : List (UInt64 × List UInt8)
  convert : List UInt8 → Option (List UInt8)

/-- `readBatchDataResults`: a later row replaces an earlier one. -/
def readBatchDataResults (rows : List (UInt64 × List UInt8)) (num : UInt64) : Option (List UInt8) :=
  rows.reverse.lookup num

/-- `GetForcedBatchDataByNumbers`: numbers of forced batches in the first table, and of batches in
the backup. -/
def getForcedBatchDataByNumbers (st : BatchTables) (nums : List UInt64) :
    Outcome RetrieveError (UInt64 → Option (List UInt8)) :=
  match (st.forcedBatch.filter fun row => row.1 ∈ nums).mapM
      fun row => (st.convert row.2).map (row.1, ·) with
  | none => err .state
  | some [] => ok (readBatchDataResults (st.batchDataBackup.filter fun row => row.1 ∈ nums))
  | some rows => ok (readBatchDataResults rows)

/-- The data availability layer: the data for batch numbers and hashes. -/
abbrev BatchDataProvider := List UInt64 → List Hash → Option (List (List UInt8))

def getBatchL2Data (da : BatchDataProvider) (infos : List BatchInfo) :
    Outcome RetrieveError (UInt64 → Option (List UInt8)) :=
  let regular := infos.filter fun info => !info.isForced
  if regular.isEmpty then ok fun _ => none
  else match da (regular.map BatchInfo.num) (regular.map BatchInfo.hash) with
    | none => err .dataAvailability
    | some data =>
      if data.length ≠ regular.length then err (.notAllData regular.length data.length)
      else ok (readBatchDataResults ((regular.map BatchInfo.num).zip data))

variable (keccak kc : List UInt8 → Hash)

def checkForced (data : UInt64 → Option (List UInt8)) : List BatchInfo → Outcome RetrieveError Unit
  | [] => ok ()
  | info :: infos =>
    match data info.num with
    | none => err (.missingForcedBatchData info.num)
    | some d => if keccak d ≠ info.hash then err (.wrongHash info.num) else checkForced data infos

def getForcedBatchData (st : BatchTables) (infos : List BatchInfo) :
    Outcome RetrieveError (UInt64 → Option (List UInt8)) :=
  let forced := infos.filter BatchInfo.isForced
  if forced.isEmpty then ok fun _ => none
  else do
    let data ← getForcedBatchDataByNumbers st (forced.map BatchInfo.num)
    checkForced keccak data forced
    ok data

def retrieveBatchData (da : BatchDataProvider) (st : BatchTables) (infos : List BatchInfo) :
    Outcome RetrieveError (List (List UInt8)) := do
  let validiumData ← getBatchL2Data da infos
  let forcedData ← getForcedBatchData keccak st infos
  ok (infos.map fun info =>
    ((if info.isForced then forcedData else validiumData) info.num).getD [])

def ValidiumBatchData.withData (x : ValidiumBatchData × List UInt8) : EtrogBatchData :=
  ⟨x.2, x.1.forcedGlobalExitRoot, x.1.forcedTimestamp, x.1.forcedBlockHashL1⟩

inductive SequenceCall where
  | sequenceBatches (batches : List EtrogBatchData)
  | sequenceBatchesValidium (batches : List ValidiumBatchData)

def decodeSequencedBatches (da : BatchDataProvider) (st : BatchTables) (call : SequenceCall)
    (lastBatchNumber : UInt64) (l1InfoRoot : Hash) (sequencer : Address) (txHash : Hash)
    (coinbase : Address) : Outcome RetrieveError (List SequencedBatch) := do
  let batches ← match call with
    | .sequenceBatches batches => ok batches
    | .sequenceBatchesValidium batches => do
        let data ← retrieveBatchData keccak da st (batchInfos lastBatchNumber batches)
        ok ((batches.zip data).map ValidiumBatchData.withData)
  ok ((numbered lastBatchNumber batches).map fun x =>
    { batchNumber := x.1
      l1InfoRoot := some l1InfoRoot
      sequencerAddr := sequencer
      txHash
      coinbase
      data := x.2 })

/-! ## What is recovered -/

def Sequence.isForced (seq : Sequence) : Bool := seq.forcedBatchTimestamp.toUInt64 > 0

/-- The layer has the data of the regular batches. -/
def CanSupply (da : BatchDataProvider) (sequences : List Sequence) : Prop :=
  ∀ xs : List (UInt64 × Sequence), (∀ x ∈ xs, x.2 ∈ sequences ∧ x.2.isForced = false) →
    da (xs.map Prod.fst) (xs.map fun x => keccak x.2.batchL2Data) =
      some (xs.map fun x => x.2.batchL2Data)

/-- If there are forced batches, then the state has their data under the numbers of the batches. -/
def ForcedFound (st : BatchTables) (lastBatchNumber : UInt64) (sequences : List Sequence) : Prop :=
  let forced := (numbered lastBatchNumber sequences).filter fun x => x.2.isForced
  forced = [] ∨ ∃ data, getForcedBatchDataByNumbers st (forced.map Prod.fst) = ok data ∧
    ∀ x ∈ forced, data x.1 = some x.2.batchL2Data

variable {kc} {da : BatchDataProvider} {st : BatchTables} {lastBatchNumber ln lb : UInt64}
  {ss : List Sequence} {infos : List BatchInfo} {α : Type}

lemma numbered_map {β : Type} (f : α → β) (xs : List α) : numbered lb (xs.map f) =
    (numbered lb xs).map fun x => (x.1, f x.2) :=
  ext_getElem (by simp [numbered]) fun i _ _ => by simp [numbered]

lemma map_snd_numbered (last : UInt64) (xs : List α) : (numbered last xs).map Prod.snd = xs :=
  ext_getElem (by simp [numbered]) fun i _ _ => by simp [numbered]

lemma nodup_numbered {xs : List α} (h : xs.length ≤ 2 ^ 64) :
    ((numbered lb xs).map Prod.fst).Nodup := by
  refine pairwise_iff_getElem.mpr fun i j hi hj hij he => ?_
  simp only [numbered, length_map, length_mapIdx] at hi hj
  simp only [numbered, getElem_map, getElem_mapIdx] at he
  have hl := lb.toNat_lt
  replace he := congrArg UInt64.toNat he
  simp only [UInt64.toNat_sub, UInt64.toNat_ofNat'] at he
  omega

lemma readResults_of_mem {rows : List (UInt64 × List UInt8)}
    (hn : (rows.map Prod.fst).Nodup) {row : UInt64 × List UInt8} (h : row ∈ rows) :
    readBatchDataResults rows row.1 = some row.2 := by
  obtain ⟨bef, after, rfl⟩ := append_of_mem h
  refine lookup_eq_some_iff.mpr ⟨after.reverse, bef.reverse, by simp, fun p hp => ?_⟩
  rw [map_append, map_cons, nodup_middle] at hn
  refine bne_iff_ne.mpr fun he => (nodup_cons.mp hn).1 ?_
  rw [he, ← map_append]
  exact mem_map_of_mem (mem_append_right _ (mem_reverse.mp hp))

def info (keccak : List UInt8 → Hash) (x : UInt64 × Sequence) : BatchInfo :=
  ⟨x.1, keccak x.2.batchL2Data, x.2.isForced⟩

lemma batchInfos_seqBatches : batchInfos lb (sequenceBatches kc ss) =
    (numbered lb ss).map (info kc) := by
  rw [batchInfos, sequenceBatches, numbered_map, map_map]
  rfl

lemma getBatchL2Data_eq {rgl : List (UInt64 × Sequence)}
    (hr : infos.filter (fun info => !info.isForced) = rgl.map (info kc))
    (hn : (rgl.map Prod.fst).Nodup)
    (hd : da (rgl.map Prod.fst) (rgl.map fun x => kc x.2.batchL2Data) =
    some (rgl.map fun x => x.2.batchL2Data)) :
    ∃ data, getBatchL2Data da infos = ok data ∧ ∀ x ∈ rgl, data x.1 = some x.2.batchL2Data := by
  have hm : (rgl.map (info kc)).map BatchInfo.num = rgl.map Prod.fst := map_map
  have hh : (rgl.map (info kc)).map BatchInfo.hash = rgl.map fun x => kc x.2.batchL2Data := map_map
  rw [getBatchL2Data, hr, hm, hh, hd]
  split_ifs with he
  · rw [List.isEmpty_iff, List.map_eq_nil_iff] at he
    exact ⟨_, rfl, he ▸ nofun⟩
  dsimp only
  rw [if_neg (by simp), zip_map']
  refine ⟨_, rfl, fun x hx => readResults_of_mem ?_ (mem_map_of_mem
    (f := fun x : UInt64 × Sequence => (x.1, x.2.batchL2Data)) hx)⟩
  rw [map_map]
  exact hn

lemma checkForced_ok_iff {data : UInt64 → Option (List UInt8)} : checkForced kc data infos = ok () ↔
    ∀ info ∈ infos, ∃ d, data info.num = some d ∧ kc d = info.hash := by
  induction infos with
  | nil => exact iff_of_true rfl nofun
  | cons info infos ih =>
    rw [checkForced, forall_mem_cons, ← ih]
    cases data info.num with
    | none => simp
    | some d => by_cases hh : kc d = info.hash <;> simp [hh]

lemma getForcedBatchData_iff {fb : List (UInt64 × Sequence)} (hf : infos.filter BatchInfo.isForced =
    fb.map (info kc)) : (∃ data, getForcedBatchData kc st infos = ok data ∧ ∀ x ∈ fb,
    (data x.1).getD [] = x.2.batchL2Data) ↔ fb = [] ∨ ∃ data,
    getForcedBatchDataByNumbers st (fb.map Prod.fst) = ok data ∧ ∀ x ∈ fb, data x.1 =
    some x.2.batchL2Data := by
  have hn : (fb.map (info kc)).map BatchInfo.num = fb.map Prod.fst := List.map_map
  rw [getForcedBatchData, hf, hn]
  split_ifs with he
  · rw [List.isEmpty_iff, List.map_eq_nil_iff] at he
    exact iff_of_true ⟨_, rfl, he ▸ nofun⟩ (.inl he)
  rw [List.isEmpty_iff, List.map_eq_nil_iff] at he
  rw [or_iff_right he]
  constructor
  · rintro ⟨data, ho, ht⟩
    obtain ⟨data, hq, ho⟩ := ok_of_bind ho
    obtain ⟨⟨⟩, hc, ho⟩ := ok_of_bind ho
    cases ho
    refine ⟨data, hq, fun x hx => ?_⟩
    obtain ⟨d, hd, -⟩ := checkForced_ok_iff.mp hc _ (mem_map_of_mem hx)
    have hp := ht x hx
    rw [show data x.1 = some d from hd] at hp ⊢
    exact congrArg some hp
  rintro ⟨data, hq, ht⟩
  have hc : checkForced kc data (fb.map (info kc)) = ok () := by
    refine checkForced_ok_iff.mpr fun y hy => ?_
    obtain ⟨x, hx, rfl⟩ := mem_map.mp hy
    exact ⟨_, ht x hx, rfl⟩
  refine ⟨data, ?_, fun x hx => ?_⟩
  · rw [hq, ok_bind, hc, ok_bind]
  · rw [ht x hx]
    rfl

/-- The batches have the posted data exactly if that is what was looked up for each of them. -/
lemma numbered_withData_iff {xs : List (UInt64 × Sequence)}
    (hx : ss = xs.map Prod.snd) (look : BatchInfo → List UInt8) :
    ((numbered lb (((sequenceBatches kc ss).zip
    ((xs.map (info kc)).map look)).map ValidiumBatchData.withData)).map
    fun x => (x.1, x.2.transactions)) =
    numbered lb (ss.map Sequence.batchL2Data) ↔
    ∀ x ∈ xs, look (info kc x) = x.2.batchL2Data := by
  subst hx
  rw [← numbered_map, map_map]
  change numbered _ (List.map Prod.snd _) = _ ↔ _
  rw [map_snd_zip (by simp [sequenceBatches]), map_map, map_map, ← map_inj_left]
  refine ⟨fun h => ?_, fun h => congrArg _ h⟩
  have hd := congrArg (List.map Prod.snd) h
  rwa [map_snd_numbered, map_snd_numbered] at hd

/-- The decoder returns the data of all batches exactly if it finds that of the forced ones. -/
theorem decodeSequencedBatches_recovers_iff (keccak : List UInt8 → Hash) (da : BatchDataProvider)
    (st : BatchTables) (sequences : List Sequence) (hlen : sequences.length ≤ 2 ^ 64)
    (hda : CanSupply keccak da sequences) (lastBatchNumber : UInt64) (l1InfoRoot : Hash)
    (sequencer : Address) (txHash : Hash) (coinbase : Address) :
    (∃ batches, decodeSequencedBatches keccak da st
    (.sequenceBatchesValidium (sequenceBatches keccak sequences)) lastBatchNumber l1InfoRoot
    sequencer txHash coinbase = ok batches ∧
    batches.map (fun b => (b.batchNumber, b.data.transactions)) =
    numbered lastBatchNumber (sequences.map Sequence.batchL2Data)) ↔
    ForcedFound st lastBatchNumber sequences := by
  have hf : ((numbered lastBatchNumber sequences).map (info keccak)).filter BatchInfo.isForced =
      ((numbered lastBatchNumber sequences).filter fun x => x.2.isForced).map (info keccak) :=
    filter_map
  rw [decodeSequencedBatches, batchInfos_seqBatches, ForcedFound, ← getForcedBatchData_iff hf]
  generalize hxs : numbered lastBatchNumber sequences = xs
  have hs : sequences = xs.map Prod.snd := hxs ▸ (map_snd_numbered _ _).symm
  obtain ⟨vd, hv, hr⟩ := @getBatchL2Data_eq keccak da _
    (xs.filter fun x => !x.2.isForced) filter_map
    ((hxs ▸ nodup_numbered hlen).sublist (filter_sublist.map Prod.fst))
    (hda _ fun x hx => by
      obtain ⟨hx, hf⟩ := mem_filter.mp hx
      exact ⟨hs ▸ mem_map_of_mem hx, Bool.not_eq_true' _ ▸ hf⟩)
  dsimp only
  rw [retrieveBatchData, hv, ok_bind]
  constructor
  · rintro ⟨batches, hok, hb⟩
    obtain ⟨data, hdt, hok⟩ := ok_of_bind hok
    obtain ⟨fd, hf, hdt⟩ := ok_of_bind hdt
    cases hdt
    rw [ok_bind] at hok
    cases hok
    rw [map_map] at hb
    refine ⟨fd, hf, fun x hx => ?_⟩
    obtain ⟨hx, hx'⟩ := mem_filter.mp hx
    have hlk := (numbered_withData_iff hs _).mp hb x hx
    rwa [info, if_pos hx'] at hlk
  rintro ⟨fd, hf, hdt⟩
  rw [hf, ok_bind, ok_bind, ok_bind]
  refine ⟨_, rfl, ?_⟩
  rw [map_map]
  refine (numbered_withData_iff hs _).mpr fun x hx => ?_
  rw [info]
  cases hx' : x.2.isForced with
  | true => exact hdt x (mem_filter.mpr ⟨hx, hx'⟩)
  | false =>
    rw [if_neg nofun, hr x (mem_filter.mpr ⟨hx, by rw [hx']; rfl⟩)]
    rfl

def oneForced : Sequence := ⟨[5], zeroHash, 1, zeroHash⟩

/-- A call with one forced batch, whose number as a forced batch is given. -/
def decodeOneForced (forcedBatchNum : UInt64) : Outcome RetrieveError (List SequencedBatch) :=
  decodeSequencedBatches (fun _ => plainHash 1) (fun _ _ => some [])
    ⟨[(forcedBatchNum, [5])], [], some⟩
    (.sequenceBatchesValidium (sequenceBatches (fun _ => plainHash 1) [oneForced])) 7
    zeroHash .zero zeroHash .zero

theorem decodeSequencedBatches_recovers_iff_sameNumber : ∃ batches, decodeOneForced 7 = ok batches ∧
    batches.map (fun b => (b.batchNumber, b.data.transactions)) = numbered 7 [[5]] := by
  refine (decodeSequencedBatches_recovers_iff _ _ _ [oneForced] (by decide) (fun xs hxs => ?_)
    7 _ _ _ _).mpr (.inr ⟨_, rfl, by decide⟩)
  rcases xs with _ | ⟨x, xs⟩
  · rfl
  obtain ⟨hm, hf⟩ := hxs x mem_cons_self
  rw [mem_singleton.mp hm] at hf
  cases hf

/-- The state is asked for the number of the batch, 7, instead of that of the forced batch. -/
theorem forcedBatch_not_found : decodeOneForced 1 = err (.missingForcedBatchData 7) := rfl

/-! ## The backup of the data -/

/-- A row of `state.batch_data_backup`. -/
structure BackupRow where
  batchNum : UInt64
  data : List UInt8
  createdAt : ℕ

/-- The tables `state.batch` and `state.batch_data_backup` with their primary keys. The backups are
listed as the query orders them, by `created_at DESC`. -/
structure L2DataTables where
  batch : List (UInt64 × List UInt8)
  batch_nodup : (batch.map Prod.fst).Nodup
  backup : List BackupRow
  newest_first : backup.Pairwise fun row older => older.createdAt ≤ row.createdAt ∧
    (older.batchNum = row.batchNum → older.createdAt ≠ row.createdAt)

def getBatchL2DataByNumbersFromBackup (st : L2DataTables) (batchNumbers : List UInt64) :
    UInt64 → Option (List UInt8) :=
  readBatchDataResults ((st.backup.filter fun row => row.batchNum ∈ batchNumbers).map
    fun row => (row.batchNum, row.data))

/-- `GetBatchL2DataByNumbers`: the backup is asked only if no batch was found. -/
def getBatchL2DataByNumbers (st : L2DataTables) (batchNumbers : List UInt64) :
    UInt64 → Option (List UInt8) :=
  let rows := st.batch.filter fun row => row.1 ∈ batchNumbers
  if rows = [] then getBatchL2DataByNumbersFromBackup st batchNumbers
  else readBatchDataResults rows

def L2DataTables.backupsOf (st : L2DataTables) (num : UInt64) : List (List UInt8) :=
  (st.backup.filter fun row => row.batchNum = num).map BackupRow.data

/-- The data of a batch: that of the batch table, else the most recent backup. -/
def L2DataTables.dataOf (st : L2DataTables) (num : UInt64) : Option (List UInt8) :=
  st.batch.lookup num <|> (st.backupsOf num).head?

variable {st : L2DataTables} {nums : List UInt64} {num : UInt64}

lemma readBatchDataResults_eq (rows : List (UInt64 × List UInt8)) :
    readBatchDataResults rows num = ((rows.filter (·.1 = num)).map Prod.snd).getLast? := by
  rw [readBatchDataResults, ← head?_reverse, ← map_reverse, ← filter_reverse]
  induction rows.reverse with
  | nil => rfl
  | cons row rest ih => by_cases h : row.1 = num <;> grind

lemma lookup_batch_none_iff : st.batch.lookup num = none ↔ ∀ row ∈ st.batch, row.1 ≠ num := by
  simp only [lookup_eq_none_iff, bne_iff_ne, ne_comm]

lemma readBatchDataResults_batch (hn : num ∈ nums) :
    readBatchDataResults (st.batch.filter (·.1 ∈ nums)) num = st.batch.lookup num := by
  rcases hl : st.batch.lookup num with _ | data
  · have ha := lookup_batch_none_iff.mp hl
    rw [readBatchDataResults_eq, filter_eq_nil_iff.mpr (by simp +contextual [ha])]
    rfl
  obtain ⟨bef, after, hb, _⟩ := lookup_eq_some_iff.mp hl
  have hr : (num, data) ∈ st.batch := hb ▸ mem_append_right _ mem_cons_self
  exact readResults_of_mem (st.batch_nodup.sublist (filter_sublist.map _))
    (mem_filter.mpr ⟨hr, by simpa using hn⟩)

lemma getBatchL2DataByNumbersFromBackup_eq :
    getBatchL2DataByNumbersFromBackup st nums num =
    if num ∈ nums then (st.backupsOf num).getLast? else none := by
  rw [getBatchL2DataByNumbersFromBackup, readBatchDataResults_eq, L2DataTables.backupsOf]
  split_ifs with h
  · congr 1
    induction st.backup with
    | nil => rfl
    | cons row rows ih => grind
  · rw [filter_eq_nil_iff.mpr (by grind)]
    rfl

/-- The data is right unless a requested number has a backup only, and another one is a batch or
its first backup differs from the last one. -/
theorem getBatchL2DataByNumbers_eq_iff (st : L2DataTables) (nums : List UInt64) :
    (∀ num, getBatchL2DataByNumbers st nums num = if num ∈ nums then st.dataOf num else none) ↔
    ∀ num ∈ nums, st.batch.lookup num = none → st.backupsOf num = [] ∨
      (∀ n ∈ nums, st.batch.lookup n = none) ∧
      (st.backupsOf num).getLast? = (st.backupsOf num).head? := by
  have hnl : st.batch.filter (·.1 ∈ nums) = [] ↔ ∀ n ∈ nums, st.batch.lookup n = none := by
    simp only [filter_eq_nil_iff, lookup_batch_none_iff, decide_eq_true_eq]
    grind
  simp only [getBatchL2DataByNumbers, L2DataTables.dataOf]
  split_ifs with hrw
  · have hnn := hnl.mp hrw
    simp only [getBatchL2DataByNumbersFromBackup_eq]
    grind
  have hs := mt hnl.mpr hrw
  have ho : ∀ num ∉ nums, readBatchDataResults (st.batch.filter (·.1 ∈ nums)) num = none := by
    intro num hnm
    rw [readBatchDataResults_eq, filter_eq_nil_iff.mpr (by grind)]
    rfl
  constructor
  · intro h num hnm hl
    have hg := h num
    rw [readBatchDataResults_batch hnm, if_pos hnm, hl] at hg
    exact .inl (head?_eq_none_iff.mp hg.symm)
  intro h num
  split_ifs with hnm
  · rw [readBatchDataResults_batch hnm]
    cases hl : st.batch.lookup num with
    | none => simp [(h num hnm hl).resolve_right fun hr => hs hr.1]
    | some data => rfl
  · exact ho num hnm

/-- Two batches of which only the first is in the batch table, and two backups of the second. -/
def backupTables : L2DataTables := ⟨[(1, [1])], by decide, [⟨2, [3], 20⟩, ⟨2, [2], 10⟩], by decide⟩

/-- The backup of the second batch is not found beside the first one, and alone the older one is
returned. -/
theorem backup_not_latest : backupTables.dataOf 2 = some [3] ∧
    getBatchL2DataByNumbers backupTables [1, 2] 2 = none ∧
    getBatchL2DataByNumbers backupTables [2] 2 = some [2] := by decide

end EthdaNode.Etherman
