import EthdaNode.State.ForkID
import EthdaNode.Support.GoRuntime

/-!
# The forks on L1

`GetForks` queries L1 for the events of the rollup contracts, in chunks of blocks, and makes the
list of the forks of its own rollup from them.
-/

namespace EthdaNode.Etherman

open Go Go.Outcome State List UInt64

inductive VersionEvent where
  | updateZkEVMVersion (numBatch forkID : UInt64) (version : String)
  | updateRollup (rollupID newRollupTypeID : UInt32) (lastVerifiedBatchBeforeUpgrade : UInt64)
  | addExistingRollup (rollupID : UInt32) (forkID lastVerifiedBatchBeforeUpgrade : UInt64)
  | createNewRollup (rollupID rollupTypeID : UInt32)

structure ForkLog where
  event : Option VersionEvent
  blockNumber : UInt64

inductive ForksError where
  | filterLogs
  | parse
  | rollupTypeMap
  deriving DecidableEq

structure ForksEnv where
  filterLogs : UInt64 → UInt64 → Option (List ForkLog)
  rollupTypeMap : UInt32 → Option UInt64
  rollupID : UInt32
  forkIDChunkSize : UInt64

structure Query where
  fromBlock : UInt64
  toBlock : UInt64
  logs : List ForkLog

/-- The loop of the queries. The first argument bounds the number of iterations. -/
def queryLogs (env : ForksEnv) (lastL1BlockSynced : UInt64) :
    ℕ → UInt64 → Outcome ForksError (List Query)
  | 0, _ => hang
  | fuel + 1, i =>
    if i ≤ lastL1BlockSynced then
      let final := if i + env.forkIDChunkSize > lastL1BlockSynced then lastL1BlockSynced
        else i + env.forkIDChunkSize
      match env.filterLogs i final with
      | none => err .filterLogs
      | some logs => do
          let queries ← queryLogs env lastL1BlockSynced fuel (i + env.forkIDChunkSize + 1)
          ok (⟨i, final, logs⟩ :: queries)
    else ok []

/-- The version of an event: the batch before it, the fork and the text. -/
structure ZkEVMVersion where
  numBatch : UInt64
  forkID : UInt64
  version : String

variable (env : ForksEnv)

/-- The version that a log is about, or nothing if the log is about another rollup. -/
def versionOf (log : ForkLog) : Outcome ForksError (Option ZkEVMVersion) :=
  match log.event with
  | none => err .parse
  | some (.updateZkEVMVersion numBatch forkID version) => ok (some ⟨numBatch, forkID, version⟩)
  | some (.updateRollup rollupID newRollupTypeID lastVerified) =>
    if env.rollupID ≠ rollupID then ok none
    else match env.rollupTypeMap newRollupTypeID with
    | none => err .rollupTypeMap
    | some forkID => ok (some ⟨lastVerified, forkID, ""⟩)
  | some (.addExistingRollup rollupID forkID lastVerified) =>
    if env.rollupID ≠ rollupID then ok none else ok (some ⟨lastVerified, forkID, ""⟩)
  | some (.createNewRollup rollupID rollupTypeID) =>
    if env.rollupID ≠ rollupID then ok none
    else match env.rollupTypeMap rollupTypeID with
    | none => err .rollupTypeMap
    | some forkID => ok (some ⟨0, forkID, ""⟩)

def openFork (version : ZkEVMVersion) (log : ForkLog) : ForkIDInterval where
  fromBatchNumber := version.numBatch + 1
  toBatchNumber := 0xffffffffffffffff
  forkId := version.forkID
  version := version.version
  blockNumber := log.blockNumber

/-- An iteration of the loop over the logs. The last fork so far is ended, unless the log is the
first one. -/
def addFork (forks : List ForkIDInterval) (log : ForkLog × ℕ) :
    Outcome ForksError (List ForkIDInterval) := do
  match ← versionOf env log.1 with
  | none => ok forks
  | some version =>
    if log.2 = 0 then ok (forks ++ [openFork version log.1])
    else match forks.getLast? with
    | none => panic
    | some last =>
      ok (forks.dropLast ++ [{ last with toBatchNumber := version.numBatch },
        openFork version log.1])

def getForks (genBlockNumber lastL1BlockSynced : UInt64) :
    Outcome ForksError (List Query × List ForkIDInterval) := do
  let lastL1BlockSynced :=
    if lastL1BlockSynced < genBlockNumber then genBlockNumber else lastL1BlockSynced
  let queries ← queryLogs env lastL1BlockSynced
    (lastL1BlockSynced.toNat - genBlockNumber.toNat + 2) genBlockNumber
  let forks ← (queries.flatMap Query.logs).zipIdx.foldlM (addFork env) []
  ok (queries, forks)

/-! ## The queries -/

variable {env : ForksEnv} {last : UInt64}

/-- The queries cover the blocks of an interval, each of them once, and nothing else. -/
def Covers (queries : List Query) (first last : UInt64) : Prop :=
  ∀ b, queries.countP (fun q => decide (q.fromBlock ≤ b ∧ b ≤ q.toBlock)) =
    if first ≤ b ∧ b ≤ last then 1 else 0

lemma queryLogs_covers (hs : ∀ i j, (env.filterLogs i j).isSome)
    (ho : last.toNat + env.forkIDChunkSize.toNat + 1 < 2 ^ 64) {fuel : ℕ} {i : UInt64}
    (hi : i.toNat ≤ last.toNat + env.forkIDChunkSize.toNat + 1)
    (hfl : last.toNat + 1 - i.toNat < fuel) : ∃ qs, queryLogs env last fuel i = ok qs ∧ Covers qs i
    last ∧ ∀ q ∈ qs, env.filterLogs q.fromBlock q.toBlock = some q.logs := by
  induction fuel generalizing i with
  | zero => omega
  | succ fuel ih =>
    rw [queryLogs]
    by_cases hl : i ≤ last
    · rw [if_pos hl]
      have hle' := UInt64.le_iff_toNat_le.mp hl
      have hf : (i + env.forkIDChunkSize).toNat = i.toNat + env.forkIDChunkSize.toNat := by
        rw [UInt64.toNat_add]
        omega
      have hn : (i + env.forkIDChunkSize + 1).toNat = i.toNat + env.forkIDChunkSize.toNat + 1 := by
        rw [UInt64.toNat_add, hf, UInt64.toNat_one]
        exact Nat.mod_eq_of_lt (by omega)
      obtain ⟨qs, hq, hc, hlg⟩ := ih (i := i + env.forkIDChunkSize + 1) (by omega) (by omega)
      generalize he : (if i + env.forkIDChunkSize > last then last
        else i + env.forkIDChunkSize) = final
      obtain ⟨logs, ha⟩ := Option.isSome_iff_exists.mp (hs i final)
      dsimp only
      rw [ha, hq]
      refine ⟨⟨i, final, logs⟩ :: qs, rfl, fun b => ?_, forall_mem_cons.mpr ⟨ha, hlg⟩⟩
      have hend' : final.toNat = min last.toNat (i.toNat + env.forkIDChunkSize.toNat) := by
        rw [← he, ← hf]
        split_ifs with hg
        · rw [gt_iff_lt, lt_iff_toNat_lt] at hg
          omega
        · rw [gt_iff_lt, lt_iff_toNat_lt] at hg
          omega
      rw [countP_cons, hc b]
      simp only [le_iff_toNat_le, hn, hend', decide_eq_true_eq]
      split_ifs <;> omega
    · rw [if_neg hl]
      refine ⟨[], rfl, fun b => ?_, nofun⟩
      rw [if_neg]
      · rfl
      · rintro ⟨hib, hb⟩
        exact hl (UInt64.le_trans hib hb)

/-! ## The forks -/

/-- The versions of the own rollup, with their logs. -/
def ownVersions (env : ForksEnv) (logs : List ForkLog) : List (ZkEVMVersion × ForkLog) :=
  logs.filterMap fun log =>
    match versionOf env log with
    | ok (some version) => some (version, log)
    | _ => none

/-- The fork of each version ends before the next one begins. -/
def intervals : List (ZkEVMVersion × ForkLog) → List ForkIDInterval
  | [] => []
  | [(version, log)] => [openFork version log]
  | (version, log) :: (next, log') :: rest =>
    { openFork version log with toBatchNumber := next.numBatch } :: intervals ((next, log') :: rest)

/-- The first log is about the own rollup, or none is. -/
def startsOwn (env : ForksEnv) (logs : List ForkLog) : Prop :=
  ownVersions env logs = [] ∨ ownVersions env (logs.take 1) ≠ []

/-- Every fork begins after the end of the one before, and the last one has no end. -/
structure Contiguous (forks : List ForkIDInterval) : Prop where
  chain : forks.IsChain fun a b => a.toBatchNumber + 1 = b.fromBatchNumber
  last : ∀ fork, forks.getLast? = some fork → fork.toBatchNumber = 0xffffffffffffffff

variable (versions : List (ZkEVMVersion × ForkLog))

lemma isChain_intervals :
    (intervals versions).IsChain fun a b => a.toBatchNumber + 1 = b.fromBatchNumber := by
  induction versions using intervals.induct with
  | case1 => exact isChain_nil
  | case2 version log => exact isChain_singleton _
  | case3 version log next log' rest ih =>
    rw [intervals]
    cases rest with
    | _ => exact isChain_cons_cons.mpr ⟨rfl, ih⟩

lemma getLast?_intervals :
    (intervals versions).getLast? = versions.getLast?.map fun v => openFork v.1 v.2 := by
  induction versions using intervals.induct with
  | case1 => rfl
  | case2 version log => rfl
  | case3 version log next log' rest ih =>
    rw [intervals, List.getLast?_cons_cons, ← ih]
    cases rest with
    | _ => rfl

lemma contiguous_intervals : Contiguous (intervals versions) := by
  refine ⟨isChain_intervals versions, fun fork hf => ?_⟩
  rw [getLast?_intervals] at hf
  obtain ⟨v, -, rfl⟩ := Option.map_eq_some_iff.mp hf
  rfl

lemma intervals_concat {versions : List (ZkEVMVersion × ForkLog)} (hn : versions ≠ [])
    (version : ZkEVMVersion) (log : ForkLog) :
    ∃ last, (intervals versions).getLast? = some last ∧
    intervals (versions ++ [(version, log)]) = (intervals versions).dropLast ++
    [{ last with toBatchNumber := version.numBatch }, openFork version log] := by
  induction versions using intervals.induct with
  | case1 => exact absurd rfl hn
  | case2 first log' => exact ⟨_, rfl, rfl⟩
  | case3 first log' next log₁ rest ih =>
    obtain ⟨last, hl, ha⟩ := ih nofun
    have hr : intervals ((next, log₁) :: rest) ≠ [] := by
      intro hnl
      rw [hnl] at hl
      cases hl
    refine ⟨last, ?_, ?_⟩
    · rw [intervals, List.getLast?_cons, hl]
      rfl
    · rw [cons_append, cons_append, intervals, ← cons_append, ha, intervals,
        dropLast_cons_of_ne_nil hr, cons_append]

lemma ownVersions_concat (logs : List ForkLog) (log : ForkLog) :
    ownVersions env (logs ++ [log]) = ownVersions env logs ++ ownVersions env [log] :=
  filterMap_append

lemma ownVersions_singleton {log : ForkLog} {v : Option ZkEVMVersion} (hv : versionOf env log =
    ok v) : ownVersions env [log] = v.toList.map fun version => (version, log) := by
  rw [ownVersions, filterMap_cons, hv]
  cases v with
  | _ => rfl

variable {logs : List ForkLog}

lemma startsOwn_concat (log : ForkLog) (hn : ownVersions env logs ≠ []) :
    startsOwn env (logs ++ [log]) ↔ startsOwn env logs := by
  cases logs with
  | nil => exact absurd rfl hn
  | cons first logs =>
    rw [startsOwn, startsOwn, ownVersions_concat, append_eq_nil_iff]
    exact or_congr (iff_of_false (fun h => hn h.1) hn) Iff.rfl

lemma foldlM_addFork_concat {forks : List ForkIDInterval}
    (h : logs.zipIdx.foldlM (addFork env) [] = ok forks) (log : ForkLog) :
    (logs ++ [log]).zipIdx.foldlM (addFork env) [] = addFork env forks (log, logs.length) := by
  rw [List.zipIdx_append, List.foldlM_append, h, ok_bind, List.zipIdx_singleton,
    List.foldlM_cons, Nat.zero_add]
  exact bind_pure _

lemma not_startsOwn_concat {log : ForkLog} (hn : logs ≠ []) (hb : ownVersions env logs = [])
    (ho : ownVersions env [log] ≠ []) : ¬startsOwn env (logs ++ [log]) := by
  rintro (hnone | hfst)
  · rw [ownVersions_concat] at hnone
    exact ho (append_eq_nil_iff.mp hnone).2
  · rw [take_append_of_le_length (length_pos_iff.mpr hn)] at hfst
    exact hfst (eq_nil_of_sublist_nil (hb ▸ Sublist.filterMap _ (take_sublist 1 logs)))

/-- The loop over the logs makes the list of the forks if the first log is about the own rollup.
Otherwise the first log of the own rollup has no fork before it to end. -/
lemma foldlM_addFork (hg : ∀ log ∈ logs, ∃ v, versionOf env log = ok v) : (startsOwn env logs →
    logs.zipIdx.foldlM (addFork env) [] = ok (intervals (ownVersions env logs))) ∧
    (¬startsOwn env logs → logs.zipIdx.foldlM (addFork env) [] = panic) := by
  induction logs using List.reverseRecOn with
  | nil => exact ⟨fun _ => rfl, fun h => absurd (.inl rfl) h⟩
  | append_singleton logs log ih =>
    have hl : log ∈ logs ++ [log] := mem_append_cons_self
    obtain ⟨hk, hp⟩ := ih fun log hlo => hg log (mem_append_left _ hlo)
    obtain ⟨v, hv⟩ := hg log hl
    have ho := ownVersions_singleton hv
    by_cases hb : ownVersions env logs = []
    · rw [foldlM_addFork_concat (hk (.inl hb)), ownVersions_concat, hb, nil_append, ho, addFork, hv]
      rcases v with _ | version
      · refine ⟨fun _ => rfl, fun h => absurd (.inl ?_) h⟩
        rw [ownVersions_concat, hb, ho]
        rfl
      cases logs with
      | nil =>
        refine ⟨fun _ => rfl, fun h => absurd (.inr ?_) h⟩
        change ownVersions env [log] ≠ []
        rw [ho]
        exact nofun
      | cons first logs =>
        refine ⟨fun h => absurd h (not_startsOwn_concat nofun hb ?_), fun _ => rfl⟩
        rw [ho]
        exact nofun
    rw [startsOwn_concat log hb]
    by_cases hs : startsOwn env logs
    · refine ⟨fun _ => ?_, fun h => absurd hs h⟩
      rw [foldlM_addFork_concat (hk hs), ownVersions_concat, ho, addFork, hv]
      rcases v with _ | version
      · change ok _ = ok (intervals (_ ++ []))
        rw [append_nil]
      have hn : logs.length ≠ 0 := by
        intro hz
        rw [length_eq_zero_iff.mp hz] at hb
        exact hb rfl
      obtain ⟨last, hl, ha⟩ := intervals_concat hb version log
      change (if logs.length = 0 then _ else _) = _
      rw [if_neg hn, hl]
      exact congrArg ok ha.symm
    · refine ⟨fun h => absurd h hs, fun _ => ?_⟩
      rw [List.zipIdx_append, List.foldlM_append, hp hs]
      rfl

/-- The blocks from the genesis on are queried once each, and the forks are the contiguous intervals
of the own rollup's versions exactly if the first log is about the own rollup, or none is. -/
theorem getForks_eq_intervals_iff (env : ForksEnv) (genBlockNumber lastL1BlockSynced : UInt64)
    (hovf : max genBlockNumber.toNat lastL1BlockSynced.toNat +
      env.forkIDChunkSize.toNat + 1 < 2 ^ 64)
    (hanswers : ∀ i j, (env.filterLogs i j).isSome)
    (hversions : ∀ i j logs, env.filterLogs i j = some logs → ∀ log ∈ logs,
      ∃ version, versionOf env log = ok version) :
    let last := if lastL1BlockSynced < genBlockNumber then genBlockNumber else lastL1BlockSynced
    ∃ queries : List Query,
      queryLogs env last (last.toNat - genBlockNumber.toNat + 2) genBlockNumber = ok queries ∧
      Covers queries genBlockNumber last ∧
      (∀ q ∈ queries, env.filterLogs q.fromBlock q.toBlock = some q.logs) ∧
      (getForks env genBlockNumber lastL1BlockSynced =
          ok (queries, intervals (ownVersions env (queries.flatMap Query.logs))) ∧
          Contiguous (intervals (ownVersions env (queries.flatMap Query.logs))) ↔
        startsOwn env (queries.flatMap Query.logs)) := by
  intro last
  have hlast : (if lastL1BlockSynced < genBlockNumber then genBlockNumber
    else lastL1BlockSynced) = last := rfl
  rw [getForks, hlast]
  have hm : last.toNat = max genBlockNumber.toNat lastL1BlockSynced.toNat := by
    rw [← hlast]
    split_ifs with hlt
    · rw [lt_iff_toNat_lt] at hlt
      omega
    · rw [lt_iff_toNat_lt] at hlt
      omega
  have hfuel : last.toNat + 1 - genBlockNumber.toNat < last.toNat - genBlockNumber.toNat + 2 := by
    omega
  obtain ⟨queries, hmade, hc, hlogs⟩ := queryLogs_covers hanswers (by omega) (by omega) hfuel
  refine ⟨queries, hmade, hc, hlogs, ?_⟩
  rw [hmade, ok_bind]
  have hall : ∀ log ∈ queries.flatMap Query.logs, ∃ version, versionOf env log = ok version := by
    intro log hlog
    obtain ⟨q, hq, hlog⟩ := mem_flatMap.mp hlog
    exact hversions _ _ _ (hlogs q hq) log hlog
  obtain ⟨hok, hp⟩ := foldlM_addFork hall
  constructor
  · rintro ⟨hr, -⟩
    by_contra hf
    rw [hp hf] at hr
    cases hr
  · intro hs
    rw [hok hs]
    exact ⟨rfl, contiguous_intervals _⟩

def createdRollup (rollupID : UInt32) : ForkLog := ⟨some (.createNewRollup rollupID 1), 7⟩

/-- L1 with some rollups, all created in block 7, seen by the node of rollup 1. -/
def createdRollups (ids : List UInt32) : ForksEnv where
  filterLogs := fun i j => some (if i ≤ 7 ∧ 7 ≤ j then ids.map createdRollup else [])
  rollupTypeMap := fun _ => some 9
  rollupID := 1
  forkIDChunkSize := 2

/-- Another rollup was created before the own one. -/
theorem getForks_panics : getForks (createdRollups [2, 1]) 5 10 = panic := by rfl

/-- The own rollup comes first, in the first of two queries. -/
theorem getForks_eq_intervals_iff_own :
    let queries : List Query := [⟨5, 7, [createdRollup 1, createdRollup 2]⟩, ⟨8, 10, []⟩]
    getForks (createdRollups [1, 2]) 5 10 =
        ok (queries, intervals (ownVersions (createdRollups [1, 2]) (queries.flatMap Query.logs))) ∧
      Contiguous
        (intervals (ownVersions (createdRollups [1, 2]) (queries.flatMap Query.logs))) := by
  have hversions : ∀ i j logs, (createdRollups [1, 2]).filterLogs i j = some logs →
      ∀ log ∈ logs, ∃ version, versionOf (createdRollups [1, 2]) log = ok version := by
    intro i j logs hlogs log hlog
    have hlog : log ∈ [createdRollup 1, createdRollup 2] := by
      cases hlogs
      split_ifs at hlog
      · exact hlog
      · cases hlog
    rcases mem_pair.mp hlog with rfl | rfl
    · exact ⟨some ⟨0, 9, ""⟩, rfl⟩
    · exact ⟨none, rfl⟩
  obtain ⟨queries, hmade, -, -, hforks⟩ := getForks_eq_intervals_iff (createdRollups [1, 2]) 5 10
    (by decide) (fun _ _ => rfl) hversions
  obtain rfl := Outcome.ok.inj hmade
  exact hforks.mpr (.inr nofun)

end EthdaNode.Etherman
