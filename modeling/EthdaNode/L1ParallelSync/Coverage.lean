import EthdaNode.L1ParallelSync.SyncStatus

/-!
# Every requested block is received or in process

Runs of `syncStatus`. A range is launched when a worker takes what `GetNextRange` has
returned. An open-ended range that fails is dropped by the next call of `GetNextRange`, and
`Reset` keeps the failed ranges; as long as neither happens, every block up to the highest
requested one is received or lies in exactly one range.
-/

namespace EthdaNode.L1ParallelSync

open List UInt64 Bool BlockRange

/-! ## Runs -/

/-- The status, the block of the last reset, what was received since, and whether no range was
handed out since. -/
structure SyncRun where
  status : SyncStatus
  start : UInt64
  received : List BlockRange
  fresh : Bool

/-- `getHighestBlockNumberInResponse` for a response whose highest block is `real`. -/
def getHighestBlockNumberInResponse (br : BlockRange) (real : UInt64) : UInt64 :=
  if br.toBlock ≠ latestBlockNumber then br.toBlock
  else if real = invalidBlockNumber then br.fromBlock - 1
  else real

/-- What can happen to the status. A worker is launched with the range that `GetNextRange`
returns. -/
inductive SyncEvent where
  | getNextRange
  | launchWorker
  | onFinishWorker (br : BlockRange) (successful : Bool) (real : UInt64)
  | onNewLastBlockOnL1 (lastBlock : UInt64)
  | reset (lastBlockStoreOnStateDB : UInt64)

namespace SyncRun

variable (r : SyncRun)

/-- The blocks of a successful response. An open-ended one goes up to the last L1 block that was
known at its launch, or to its own highest block. -/
def delivered (br : BlockRange) (real : UInt64) : BlockRange :=
  if br.toBlock = latestBlockNumber then
    ⟨br.fromBlock, max r.status.highestBlockRequested (getHighestBlockNumberInResponse br real)⟩
  else br

def handOut (launched : Bool) : Except RangeError SyncRun :=
  match r.status.getNextRange with
  | .error e => .error e
  | .ok (status, none) => .ok { r with status }
  | .ok (status, some br) =>
    if launched then
      match status.onStartedNewWorker br with
      | .error e => .error e
      | .ok status => .ok { r with status, fresh := false }
    else .ok { r with status, fresh := false }

def finish (br : BlockRange) (successful : Bool) (real : UInt64) : Except RangeError SyncRun :=
  match r.status.onFinishWorker br successful
      (if successful then getHighestBlockNumberInResponse br real else invalidBlockNumber) with
  | .error e => .error e
  | .ok (status, wasProcessing) =>
    if wasProcessing && successful then
      .ok { r with status, received := r.delivered br real :: r.received }
    else .ok { r with status }

def step (r : SyncRun) : SyncEvent → Except RangeError SyncRun
  | .getNextRange => r.handOut false
  | .launchWorker => r.handOut true
  | .onFinishWorker br successful real => r.finish br successful real
  | .onNewLastBlockOnL1 lastBlock =>
    .ok { r with status := (r.status.onNewLastBlockOnL1 lastBlock).1 }
  | .reset lastBlockStoreOnStateDB =>
    .ok ⟨r.status.reset lastBlockStoreOnStateDB, lastBlockStoreOnStateDB, [], true⟩

/-- The state after the events, unless one of them ends the process with `log.Fatal`. -/
def run (r : SyncRun) : List SyncEvent → Except RangeError SyncRun
  | [] => .ok r
  | event :: events =>
    match r.step event with
    | .error e => .error e
    | .ok r => r.run events

def ranges : List BlockRange := r.status.processingRanges ++ r.status.errorRanges

def Received (block : UInt64) : Prop := ∃ br ∈ r.received, br.has block = true

/-- Every requested block is received or in exactly one range, ranges being processed do not
overlap, and the first one after a reset starts right after it. -/
structure Covers (r : SyncRun) : Prop where
  blocks : ∀ block, r.start < block → block ≤ r.status.highestBlockRequested →
    r.Received block ∨ r.ranges.countP (fun br => br.has block) = 1
  disjoint : r.status.processingRanges.Pairwise fun a b => a.overlaps b = false
  first : r.fresh = true → ∀ status br, r.status.getNextRange = .ok (status, some br) →
    br.fromBlock = r.start + 1

/-- No open-ended range would be dropped, a new one ends up to the last block number, and a reset
finds no failed one. -/
def Careful : SyncEvent → Prop
  | .getNextRange | .launchWorker =>
    (∀ br ∈ r.status.errorRanges.head?, br.toBlock ≠ latestBlockNumber) ∧
      max r.status.lastBlockStoreOnStateDB.toNat r.status.highestBlockRequested.toNat + 1 +
        r.status.amountOfBlocksInEachRange.toNat < 2 ^ 64
  | .reset _ => r.status.errorRanges = []
  | _ => True

def CarefulRun (r : SyncRun) : List SyncEvent → Prop
  | [] => True
  | event :: events => r.Careful event ∧ ∀ r', r.step event = .ok r' → r'.CarefulRun events

end SyncRun

open SyncRun

lemma BlockRange.overlaps_comm (a b : BlockRange) : a.overlaps b = b.overlaps a := and_comm _ _

lemma BlockRange.overlaps_false_iff {a b : BlockRange} :
    a.overlaps b = false ↔ b.toBlock < a.fromBlock ∨ a.toBlock < b.fromBlock := by
  rw [overlaps, and_eq_false_iff, decide_eq_false_iff_not, decide_eq_false_iff_not,
    UInt64.not_le, UInt64.not_le]

variable {br : BlockRange} {blk : UInt64}

lemma BlockRange.has_iff : br.has blk = true ↔ br.fromBlock ≤ blk ∧ blk ≤ br.toBlock := by
  rw [has, and_eq_true, decide_eq_true_iff, decide_eq_true_iff]

lemma BlockRange.overlaps_of_has {a b : BlockRange} (ha : a.has blk = true)
    (hb : b.has blk = true) : a.overlaps b = true := by
  obtain ⟨ha, ha'⟩ := has_iff.mp ha
  obtain ⟨hb, hb'⟩ := has_iff.mp hb
  rw [overlaps, and_eq_true, decide_eq_true_iff, decide_eq_true_iff]
  exact ⟨UInt64.le_trans ha hb', UInt64.le_trans hb ha'⟩

/-- In a list of disjoint ranges, a block that is in one of them is in no other. -/
lemma countP_has_eq_one {ranges : List BlockRange}
    (hd : ranges.Pairwise fun a b => a.overlaps b = false) (hb : br ∈ ranges)
    (hh : br.has blk = true) : ranges.countP (fun r => r.has blk) = 1 := by
  obtain ⟨bef, after, rfl⟩ := append_of_mem hb
  obtain ⟨-, ha, hf⟩ := pairwise_append.mp hd
  have hn : ∀ r : BlockRange, r.overlaps br = false → ¬r.has blk = true := by
    intro r hr hl
    rw [overlaps_of_has hl hh] at hr
    cases hr
  rw [countP_append, countP_cons, if_pos hh]
  have hz : bef.countP (fun r => r.has blk) = 0 :=
    countP_eq_zero.mpr fun r hr => hn r (hf r hr br (.head _))
  have hzero' : after.countP (fun r => r.has blk) = 0 := by
    refine countP_eq_zero.mpr fun r hr => hn r ?_
    rw [overlaps_comm]
    exact (pairwise_cons.mp ha).1 r hr
  rw [hz, hzero']

lemma BlockRange.isValid_eq_ok (hf : br.fromBlock ≠ 0) (hl : br.fromBlock ≤ br.toBlock) :
    br.isValid = .ok () := by
  have ht : br.toBlock ≠ 0 := by
    intro ht
    rw [ht] at hl
    exact hf (UInt64.le_antisymm hl (UInt64.zero_le))
  have hz : ¬(br.fromBlock = invalidBlockNumber ∨ br.toBlock = invalidBlockNumber) :=
    not_or.mpr ⟨hf, ht⟩
  rw [isValid, if_neg hz, if_neg (UInt64.not_lt.mpr hl)]

lemma addBlockRange_ok {ranges : List BlockRange} (hf : br.fromBlock ≠ 0)
    (hl : br.fromBlock ≤ br.toBlock) (hd : ∀ r ∈ ranges, r.overlaps br = false) :
    addBlockRange ranges br = .ok (ranges ++ [br]) := by
  have ha : ¬(ranges.any fun r => r.overlaps br) = true := by
    intro ha
    obtain ⟨r, hr, ho⟩ := any_eq_true.mp ha
    rw [hd r hr] at ho
    cases ho
  rw [addBlockRange, isValid_eq_ok hf hl]
  exact if_neg ha

/-! ## The next range -/

namespace SyncStatus

variable {s : SyncStatus}

lemma le_highestToBlock (res : UInt64) (ranges : List BlockRange) :
    res ≤ highestToBlock res ranges ∧ ∀ r ∈ ranges, r.toBlock ≤ highestToBlock res ranges := by
  induction ranges generalizing res with
  | nil => exact ⟨UInt64.le_refl _, nofun⟩
  | cons r ranges ih =>
    obtain ⟨hr, hn⟩ := ih (if r.toBlock > res then r.toBlock else res)
    have hs : res ≤ (if r.toBlock > res then r.toBlock else res) ∧
        r.toBlock ≤ (if r.toBlock > res then r.toBlock else res) := by
      split_ifs with hl
      · exact ⟨UInt64.le_of_lt hl, UInt64.le_refl _⟩
      · exact ⟨UInt64.le_refl _, UInt64.not_lt.mp hl⟩
    refine ⟨UInt64.le_trans hs.1 hr, fun r' hr' => ?_⟩
    rcases mem_cons.mp hr' with rfl | hr'
    · exact UInt64.le_trans hs.2 hr
    · exact hn r' hr'

lemma highestToBlock_eq (res : UInt64) (ranges : List BlockRange) :
    highestToBlock res ranges = res ∨ ∃ r ∈ ranges, r.toBlock = highestToBlock res ranges := by
  induction ranges generalizing res with
  | nil => exact .inl rfl
  | cons r ranges ih =>
    rcases ih (if r.toBlock > res then r.toBlock else res) with he | ⟨r', hr', he⟩
    · rw [highestToBlock, foldl_cons, ← highestToBlock, he]
      split_ifs with hl
      · exact .inr ⟨r, .head _, rfl⟩
      · exact .inl rfl
    · exact .inr ⟨r', .tail _ hr', he⟩

lemma le_highestRequested (hb : br ∈ s.processingRanges ++ s.errorRanges) :
    br.toBlock ≤ s.getHighestBlockRequested := by
  rw [getHighestBlockRequested]
  obtain ⟨hr, he⟩ := le_highestToBlock
    (highestToBlock invalidBlockNumber s.processingRanges) s.errorRanges
  rcases mem_append.mp hb with hb | hb
  · exact UInt64.le_trans ((le_highestToBlock _ _).2 br hb) hr
  · exact he br hb

lemma highestRequested_eq (s : SyncStatus) : s.getHighestBlockRequested = invalidBlockNumber ∨
    ∃ br ∈ s.processingRanges ++ s.errorRanges, br.toBlock = s.getHighestBlockRequested := by
  rcases highestToBlock_eq (highestToBlock invalidBlockNumber s.processingRanges) s.errorRanges
    with he | ⟨br, hb, he⟩
  · rcases highestToBlock_eq invalidBlockNumber s.processingRanges with hz | ⟨br, hb, hq⟩
    · exact .inl (he.trans hz)
    · exact .inr ⟨br, mem_append_left _ hb, hq.trans he.symm⟩
  · exact .inr ⟨br, mem_append_right _ hb, he⟩

end SyncStatus

open SyncStatus

lemma le_latestBlockNum (blk : UInt64) : blk ≤ latestBlockNumber := by
  rw [le_iff_toNat_le]
  exact Nat.le_of_lt_succ blk.toNat_lt

lemma toNat_succ (hl : blk.toNat + 1 < 2 ^ 64) : (blk + 1).toNat = blk.toNat + 1 := by
  rw [UInt64.toNat_add]
  exact Nat.mod_eq_of_lt hl

lemma getNextBlockRangeFrom_spec {last amount : UInt64} (lol : UInt64)
    (hl : last.toNat + 1 + amount.toNat < 2 ^ 64) :
    (getNextBlockRangeFrom last lol amount).fromBlock.toNat = last.toNat + 1 ∧
    (getNextBlockRangeFrom last lol amount).fromBlock ≤
    (getNextBlockRangeFrom last lol amount).toBlock := by
  have hf : (last + 1).toNat = last.toNat + 1 := toNat_succ (by omega)
  refine ⟨hf, ?_⟩
  rw [getNextBlockRangeFrom]
  by_cases hm : min lol (last + 1 + amount) = lol
  · simp only [if_pos hm]
    exact le_latestBlockNum _
  have ht : min lol (last + 1 + amount) = last + 1 + amount := by
    rw [min_def] at hm ⊢
    split_ifs at hm ⊢ with he
    · exact absurd rfl hm
    · rfl
  simp only [if_neg hm]
  rw [ht, UInt64.le_iff_toNat_le, UInt64.toNat_add _ amount, hf, Nat.mod_eq_of_lt hl]
  exact Nat.le_add_right _ _

namespace SyncStatus

def newRange (s : SyncStatus) : BlockRange :=
  getNextBlockRangeFrom (max s.lastBlockStoreOnStateDB s.getHighestBlockRequested)
    s.lastBlockOnL1 s.amountOfBlocksInEachRange

lemma getNewRange_cases (s : SyncStatus) : s.getNewRange = .ok none ∨
    (s.highestBlockRequested < s.lastBlockOnL1 ∧ s.getHighestBlockRequested ≠ latestBlockNumber ∧
    s.getNewRange = s.newRange.isValid.map fun _ => some s.newRange) := by
  rw [getNewRange]
  split_ifs with hi hr hl
  · exact .inl rfl
  · exact .inl rfl
  · exact .inl rfl
  refine .inr ⟨UInt64.not_le.mp hr, hl, ?_⟩
  rw [← newRange]
  cases hv : s.newRange.isValid with
  | _ => simp only [hv, Except.map]

lemma nextRange_of_no_errors {s : SyncStatus} (he : s.errorRanges = []) :
    s.getNextRange = s.getNewRange.map fun br => (s, br) := by
  have hr : s.getNextRangeOnlyRetries = (s, none) := by
    rw [getNextRangeOnlyRetries, he]
    rfl
  rw [getNextRange, hr]
  cases hn : s.getNewRange with
  | _ => simp only [hn, Except.map]

lemma fromBlock_nextRange {s status : SyncStatus} (he : s.errorRanges = [])
    (hn : s.getNextRange = .ok (status, some br)) :
    br.fromBlock = max s.lastBlockStoreOnStateDB s.getHighestBlockRequested + 1 := by
  rw [nextRange_of_no_errors he] at hn
  rcases s.getNewRange_cases with hnn | ⟨-, -, hw⟩
  · rw [hnn] at hn
    cases hn
  rw [hw] at hn
  rcases hv : s.newRange.isValid with e | _
  · rw [hv] at hn
    cases hn
  rw [hv] at hn
  cases hn
  rfl

end SyncStatus

namespace SyncRun

variable {r r' : SyncRun} {br : BlockRange}

structure Inv (r : SyncRun) : Prop where
  disjoint : r.ranges.Pairwise fun a b => a.overlaps b = false
  valid : ∀ br ∈ r.ranges, r.start < br.fromBlock ∧ br.fromBlock ≤ br.toBlock
  bounded : ∀ br ∈ r.ranges, br.toBlock ≠ latestBlockNumber →
    br.toBlock ≤ r.status.highestBlockRequested
  open_ended : ∀ br ∈ r.ranges, br.toBlock = latestBlockNumber → br.fromBlock.toNat ≤
      max r.status.lastBlockStoreOnStateDB.toNat r.status.highestBlockRequested.toNat + 1
  requested : ∀ block, r.start < block → block ≤ r.status.highestBlockRequested →
    r.Received block ∨ ∃ br ∈ r.ranges, br.has block = true
  stored : ∀ block, r.status.highestBlockRequested < block →
    block ≤ r.status.lastBlockStoreOnStateDB → r.Received block
  start_le : r.start ≤ r.status.highestBlockRequested ∧ r.start ≤ r.status.lastBlockStoreOnStateDB
  fresh : r.fresh = true → r.ranges = [] ∧ r.status.highestBlockRequested = r.start ∧
    r.status.lastBlockStoreOnStateDB = r.start

lemma Inv.fromBlock_ne_zero (hi : r.Inv) (hb : br ∈ r.ranges) : br.fromBlock ≠ 0 := by
  intro hz
  have hl := (hi.valid br hb).1
  rw [hz] at hl
  exact absurd hl (UInt64.not_lt.mpr UInt64.zero_le)

lemma Inv.of_perm (hi : r.Inv) (hp : r'.ranges.Perm r.ranges)
    (hg : r'.status.highestBlockRequested = r.status.highestBlockRequested)
    (ht : r'.status.lastBlockStoreOnStateDB = r.status.lastBlockStoreOnStateDB)
    (hr : r'.start = r.start) (hc : r'.received = r.received)
    (hf : r'.fresh = true → r.fresh = true) : r'.Inv where
  disjoint := hp.symm.pairwise hi.disjoint fun {a b} h => by
    rw [overlaps_comm]
    exact h
  valid := by
    rw [hr]
    exact fun br hb => hi.valid br (hp.mem_iff.mp hb)
  bounded := by
    rw [hg]
    exact fun br hb => hi.bounded br (hp.mem_iff.mp hb)
  open_ended := by
    rw [hg, ht]
    exact fun br hb => hi.open_ended br (hp.mem_iff.mp hb)
  requested := by
    rw [hg, hr]
    intro blk hl he
    rcases hi.requested blk hl he with ⟨br, hb, hhs⟩ | ⟨br, hb, hhs⟩
    · exact .inl ⟨br, hc ▸ hb, hhs⟩
    · exact .inr ⟨br, hp.mem_iff.mpr hb, hhs⟩
  stored := by
    rw [hg, ht]
    intro blk hl he
    obtain ⟨br, hb, hhs⟩ := hi.stored blk hl he
    exact ⟨br, hc ▸ hb, hhs⟩
  start_le := by
    rw [hg, ht, hr]
    exact hi.start_le
  fresh := by
    intro h
    obtain ⟨hn, hh, hs⟩ := hi.fresh (hf h)
    rw [hg, ht, hr]
    exact ⟨perm_nil.mp (hn ▸ hp), hh, hs⟩

lemma Inv.covers (hi : r.Inv) : r.Covers where
  blocks := by
    intro blk ht hl
    refine (hi.requested blk ht hl).imp_right fun ⟨br, hb, hh⟩ => ?_
    exact countP_has_eq_one hi.disjoint hb hh
  disjoint := (pairwise_append.mp hi.disjoint).1
  first := by
    intro hf status br hn
    obtain ⟨hr, -, hs⟩ := hi.fresh hf
    obtain ⟨hp, he⟩ := append_eq_nil_iff.mp hr
    have hz : r.status.getHighestBlockRequested = 0 := by
      rw [getHighestBlockRequested, hp, he]
      rfl
    rw [fromBlock_nextRange he hn, hs, hz, max_def]
    split_ifs with hl
    · rw [UInt64.le_antisymm hl UInt64.zero_le]
    · rfl

/-- What `GetNextRange` returns: nothing, the first failed range, or a new range after all
others. -/
lemma Inv.nextRange_cases (hi : r.Inv) (hc : r.Careful .getNextRange) :
    r.status.getNextRange = .ok (r.status, none) ∨
    (∃ br er, r.status.errorRanges = br :: er ∧ br.toBlock ≠ latestBlockNumber ∧
    r.status.getNextRange = .ok (r.status, some br)) ∨
    ∃ br, r.status.errorRanges = [] ∧ r.status.highestBlockRequested < r.status.lastBlockOnL1 ∧
    (∀ br' ∈ r.ranges, br'.toBlock ≠ latestBlockNumber ∧ br'.toBlock < br.fromBlock) ∧
    r.status.lastBlockStoreOnStateDB < br.fromBlock ∧
    br.fromBlock.toNat ≤
    max r.status.lastBlockStoreOnStateDB.toNat r.status.highestBlockRequested.toNat + 1 ∧
    br.fromBlock ≤ br.toBlock ∧
    r.status.getNextRange = .ok (r.status, some br) := by
  obtain ⟨hhd, ht⟩ := hc
  cases hr : r.status.errorRanges with
  | cons br er =>
    have hd : br.toBlock ≠ latestBlockNumber := hhd br (by rw [hr]; rfl)
    refine .inr (.inl ⟨br, er, rfl, hd, ?_⟩)
    rw [getNextRange, getNextRangeOnlyRetries, hr]
    simp only [getFirstBlockRange, if_neg hd]
  | nil =>
    rw [nextRange_of_no_errors hr]
    rcases r.status.getNewRange_cases with hn | ⟨hs, ha, hw⟩
    · rw [hn]
      exact .inl rfl
    have hd : ∀ br' ∈ r.ranges, br'.toBlock ≠ latestBlockNumber := by
      intro br' hb he
      refine ha (UInt64.le_antisymm (le_latestBlockNum _) ?_)
      rw [← he]
      exact le_highestRequested hb
    have hh : r.status.getHighestBlockRequested ≤ r.status.highestBlockRequested := by
      rcases r.status.highestRequested_eq with hz | ⟨br', hb, he⟩
      · rw [hz]
        exact UInt64.zero_le
      · rw [← he]
        exact hi.bounded br' hb (hd br' hb)
    have hhigh' := le_iff_toNat_le.mp hh
    have hm := toNat_max r.status.lastBlockStoreOnStateDB r.status.getHighestBlockRequested
    obtain ⟨hf, hl⟩ : r.status.newRange.fromBlock.toNat = _ ∧
        r.status.newRange.fromBlock ≤ r.status.newRange.toBlock :=
      getNextBlockRangeFrom_spec r.status.lastBlockOnL1 (by rw [hm]; omega)
    rw [hm] at hf
    have hne : r.status.newRange.fromBlock ≠ 0 := by
      intro hz
      rw [hz] at hf
      exact absurd hf (Nat.succ_ne_zero _).symm
    refine .inr (.inr ⟨r.status.newRange, rfl, hs, fun br' hb => ⟨hd br' hb, ?_⟩,
      ?_, by omega, hl, ?_⟩)
    · have ho := le_iff_toNat_le.mp (le_highestRequested hb)
      rw [lt_iff_toNat_lt]
      omega
    · rw [lt_iff_toNat_lt]
      omega
    · rw [hw, isValid_eq_ok hne hl]
      rfl

lemma Inv.retry (hi : r.Inv) {errorRanges : List BlockRange}
    (he : r.status.errorRanges = br :: errorRanges)
    (hbd : br.toBlock ≠ latestBlockNumber) :
    ∃ status, r.status.onStartedNewWorker br = .ok status ∧
    { r with status, fresh := false }.Inv := by
  have hr : r.ranges = r.status.processingRanges ++ br :: errorRanges := by rw [ranges, he]
  have hbr : br ∈ r.ranges := hr ▸ mem_append_right _ (.head _)
  have hd := hi.disjoint
  rw [hr] at hd
  have ha : addBlockRange r.status.processingRanges br = .ok (r.status.processingRanges ++ [br]) :=
    addBlockRange_ok (hi.fromBlock_ne_zero hbr) (hi.valid br hbr).2 fun b hb =>
      (pairwise_append.mp hd).2.2 b hb br (.head _)
  have hm : removeBlockRange r.status.errorRanges br = .ok errorRanges := by
    rw [removeBlockRange, he, if_pos (.head _), erase_cons_head]
  have hl : ¬br.toBlock > r.status.highestBlockRequested :=
    UInt64.not_lt.mpr (hi.bounded br hbr hbd)
  rw [onStartedNewWorker, ha, hm]
  refine ⟨_, rfl, hi.of_perm ?_ ?_ rfl rfl rfl nofun⟩
  · rw [hr]
    exact Perm.of_eq (append_assoc _ _ _)
  · simp only [if_neg hbd, if_neg hl]

lemma onStarted_ok (he : r.status.errorRanges = [])
    (hf : br.fromBlock ≠ 0) (hl : br.fromBlock ≤ br.toBlock)
    (haf : ∀ br' ∈ r.ranges, br'.toBlock < br.fromBlock) :
    r.status.onStartedNewWorker br = .ok { r.status with
    processingRanges := r.status.processingRanges ++ [br]
    highestBlockRequested :=
        if br.toBlock = latestBlockNumber then r.status.lastBlockOnL1
        else if br.toBlock > r.status.highestBlockRequested then br.toBlock
        else r.status.highestBlockRequested } := by
  have ha : addBlockRange r.status.processingRanges br = .ok (r.status.processingRanges ++ [br]) :=
    addBlockRange_ok hf hl fun b hb =>
      overlaps_false_iff.mpr (.inr (haf b (mem_append_left _ hb)))
  have hr : removeBlockRange r.status.errorRanges br = .error .notFound := by
    rw [removeBlockRange, he]
    exact if_neg nofun
  rw [onStartedNewWorker, ha, hr]

lemma highest_of_launch {hi : UInt64}
    (hs : r.status.highestBlockRequested < r.status.lastBlockOnL1)
    (hh : (if br.toBlock = latestBlockNumber then r.status.lastBlockOnL1
    else if br.toBlock > r.status.highestBlockRequested then br.toBlock
    else r.status.highestBlockRequested) = hi) :
    r.status.highestBlockRequested ≤ hi ∧
    (br.toBlock ≠ latestBlockNumber → br.toBlock ≤ hi) ∧
    ∀ blk, r.status.highestBlockRequested < blk → blk ≤ hi → blk ≤ br.toBlock := by
  rw [← hh]
  split_ifs with hl hg
  · refine ⟨UInt64.le_of_lt hs, fun h => absurd hl h, fun blk _ _ => ?_⟩
    rw [hl]
    exact le_latestBlockNum _
  · exact ⟨UInt64.le_of_lt hg, fun _ => UInt64.le_refl _, fun _ _ hb => hb⟩
  · refine ⟨UInt64.le_refl _, fun _ => UInt64.not_lt.mp hg, fun blk ht hb => ?_⟩
    exact absurd hb (UInt64.not_le.mpr ht)

/-- A new range is launched. The blocks below it are in older ranges or have been received. -/
lemma Inv.launch (hi : r.Inv) (he : r.status.errorRanges = [])
    (hls : r.status.highestBlockRequested < r.status.lastBlockOnL1)
    (haf : ∀ br' ∈ r.ranges, br'.toBlock ≠ latestBlockNumber ∧ br'.toBlock < br.fromBlock)
    (hs : r.status.lastBlockStoreOnStateDB < br.fromBlock)
    (hf : br.fromBlock.toNat ≤
    max r.status.lastBlockStoreOnStateDB.toNat r.status.highestBlockRequested.toNat + 1)
    (hle : br.fromBlock ≤ br.toBlock) :
    ∃ status, r.status.onStartedNewWorker br = .ok status ∧
    { r with status, fresh := false }.Inv := by
  have hne : br.fromBlock ≠ 0 := by
    intro hz
    rw [hz] at hs
    exact absurd hs (UInt64.not_lt.mpr UInt64.zero_le)
  refine ⟨_, onStarted_ok he hne hle fun b hb => (haf b hb).2, ?_⟩
  generalize hh : (if br.toBlock = latestBlockNumber then r.status.lastBlockOnL1
    else if br.toBlock > r.status.highestBlockRequested then br.toBlock
    else r.status.highestBlockRequested) = highest
  obtain ⟨hg, ho, hc⟩ := highest_of_launch hls hh
  have hn : r.ranges = r.status.processingRanges := by rw [ranges, he, append_nil]
  have hm : ∀ b, b ∈ (r.status.processingRanges ++ [br]) ++ r.status.errorRanges →
      b ∈ r.ranges ∨ b = br := by
    intro b hb
    rw [he, append_nil, ← hn] at hb
    exact (mem_append.mp hb).imp_right mem_singleton.mp
  have hmem' : ∀ b, b ∈ r.ranges ∨ b = br →
      b ∈ (r.status.processingRanges ++ [br]) ++ r.status.errorRanges := by
    intro b hb
    rw [he, append_nil, ← hn]
    exact mem_append.mpr (hb.imp_right mem_singleton.mpr)
  have hge' := le_iff_toNat_le.mp hg
  constructor
  case disjoint =>
    change ((r.status.processingRanges ++ [br]) ++ r.status.errorRanges).Pairwise _
    rw [he, append_nil, ← hn, pairwise_append]
    refine ⟨hi.disjoint, pairwise_singleton _ _, fun a ha b hb => ?_⟩
    obtain rfl := mem_singleton.mp hb
    exact overlaps_false_iff.mpr (.inr (haf a ha).2)
  case valid =>
    intro b hb
    rcases hm b hb with hb | rfl
    · exact hi.valid b hb
    refine ⟨?_, hle⟩
    rw [lt_iff_toNat_lt] at hs ⊢
    exact (le_iff_toNat_le.mp hi.start_le.2).trans_lt hs
  case bounded =>
    intro b hb hl
    rcases hm b hb with hb | rfl
    · exact UInt64.le_trans (hi.bounded b hb hl) hg
    · exact ho hl
  case open_ended =>
    intro b hb hl
    change _ ≤ max r.status.lastBlockStoreOnStateDB.toNat highest.toNat + 1
    rcases hm b hb with hb | rfl
    · exact absurd hl (haf b hb).1
    · omega
  case requested =>
    intro blk hsr hbl
    by_cases hr : blk ≤ r.status.highestBlockRequested
    · refine (hi.requested blk hsr hr).imp_right fun ⟨b, hb, hhs⟩ => ?_
      exact ⟨b, hmem' b (.inl hb), hhs⟩
    rw [UInt64.not_le] at hr
    by_cases hw : br.fromBlock ≤ blk
    · refine .inr ⟨br, hmem' br (.inr rfl), has_iff.mpr ⟨hw, ?_⟩⟩
      exact hc blk hr hbl
    refine .inl (hi.stored blk hr ?_)
    rw [UInt64.not_le, lt_iff_toNat_lt] at hw
    rw [lt_iff_toNat_lt] at hr
    rw [le_iff_toNat_le]
    omega
  case stored =>
    intro blk ht hbl
    refine hi.stored blk ?_ hbl
    rw [lt_iff_toNat_lt] at ht ⊢
    exact hge'.trans_lt ht
  case start_le => exact ⟨UInt64.le_trans hi.start_le.1 hg, hi.start_le.2⟩
  case fresh => nofun

lemma Inv.handOut (hi : r.Inv) (launched : Bool) (hc : r.Careful .getNextRange) :
    ∃ r', r.handOut launched = .ok r' ∧ r'.Inv := by
  have hu : { r with fresh := false }.Inv := hi.of_perm (.refl _) rfl rfl rfl rfl nofun
  rcases hi.nextRange_cases hc with hnn | ⟨br, errorRanges, he, hb, hn⟩ |
    ⟨br, he, hl, ha, hr, hf, hle, hn⟩
  · rw [SyncRun.handOut, hnn]
    exact ⟨_, rfl, hi⟩
  · rw [SyncRun.handOut, hn]
    rcases launched with _ | _
    · exact ⟨_, rfl, hu⟩
    obtain ⟨status, hs, hv⟩ := hi.retry he hb
    simp only [hs, if_true]
    exact ⟨_, rfl, hv⟩
  rw [SyncRun.handOut, hn]
  rcases launched with _ | _
  · exact ⟨_, rfl, hu⟩
  obtain ⟨status, hs, hv⟩ := hi.launch he hl ha hr hf hle
  simp only [hs, if_true]
  exact ⟨_, rfl, hv⟩

lemma moveLastBlock_cases (s : SyncStatus) (hi : UInt64) :
    ∃ last, s.moveLastBlock hi = { s with lastBlockStoreOnStateDB := last } ∧
    s.lastBlockStoreOnStateDB ≤ last ∧ (last = s.lastBlockStoreOnStateDB ∨ last = hi) := by
  rw [moveLastBlock]
  split_ifs with hm
  · exact ⟨hi, rfl, UInt64.le_of_lt hm.2, .inr rfl⟩
  · exact ⟨s.lastBlockStoreOnStateDB, rfl, UInt64.le_refl _, .inl rfl⟩

lemma has_delivered {real : UInt64} (hh : br.has blk = true)
    (hl : blk ≤ r.status.highestBlockRequested) : (r.delivered br real).has blk = true := by
  rw [delivered]
  split_ifs with ht
  · refine has_iff.mpr ⟨(has_iff.mp hh).1, ?_⟩
    rw [le_iff_toNat_le] at hl ⊢
    rw [toNat_max]
    exact hl.trans (le_max_left _ _)
  · exact hh

lemma Inv.success (hi : r.Inv) (hr : br ∈ r.status.processingRanges) {real last : UInt64}
    (hle : r.status.lastBlockStoreOnStateDB ≤ last)
    (hls : last = r.status.lastBlockStoreOnStateDB ∨
    last = getHighestBlockNumberInResponse br real) :
    { r with
    status := { r.status with
    processingRanges := r.status.processingRanges.erase br, lastBlockStoreOnStateDB := last }
    received := r.delivered br real :: r.received }.Inv := by
  have hbr' : br ∈ r.ranges := mem_append_left _ hr
  have hs : (r.status.processingRanges.erase br ++ r.status.errorRanges).Sublist r.ranges :=
    Sublist.append erase_sublist (.refl _)
  have hle' := le_iff_toNat_le.mp hle
  constructor
  case disjoint => exact hi.disjoint.sublist hs
  case valid => exact fun b hb => hi.valid b (hs.subset hb)
  case bounded => exact fun b hb => hi.bounded b (hs.subset hb)
  case open_ended =>
    intro b hb hl
    have hm := hi.open_ended b (hs.subset hb) hl
    change _ ≤ max last.toNat r.status.highestBlockRequested.toNat + 1
    omega
  case requested =>
    intro blk hst hbl
    rcases hi.requested blk hst hbl with ⟨b, hb, hh⟩ | ⟨b, hb, hh⟩
    · exact .inl ⟨b, .tail _ hb, hh⟩
    by_cases he : b = br
    · obtain rfl := he
      exact .inl ⟨_, .head _, has_delivered hh hbl⟩
    · refine .inr ⟨b, mem_append.mpr ?_, hh⟩
      exact (mem_append.mp hb).imp_left (mem_erase_of_ne he).mpr
  case stored =>
    intro blk ht hbl
    by_cases ho : blk ≤ r.status.lastBlockStoreOnStateDB
    · obtain ⟨b, hb, hh⟩ := hi.stored blk ht ho
      exact ⟨b, .tail _ hb, hh⟩
    -- The block is above all that was stored, so that it can only come from an open end.
    have hg : last = getHighestBlockNumberInResponse br real := by
      refine hls.resolve_left fun he => ho ?_
      rw [← he]
      exact hbl
    refine ⟨_, .head _, ?_⟩
    have hl : br.toBlock = latestBlockNumber := by
      by_contra hl
      have hto : last = br.toBlock := by
        rw [hg, getHighestBlockNumberInResponse, if_pos hl]
      have hd := hi.bounded br hbr' hl
      change blk ≤ last at hbl
      change r.status.highestBlockRequested < blk at ht
      rw [lt_iff_toNat_lt] at ht
      rw [hto, le_iff_toNat_le] at hbl
      rw [le_iff_toNat_le] at hd
      omega
    have hm := hi.open_ended br hbr' hl
    rw [UInt64.not_le, lt_iff_toNat_lt] at ho
    change r.status.highestBlockRequested < blk at ht
    rw [lt_iff_toNat_lt] at ht
    rw [delivered, if_pos hl]
    refine has_iff.mpr ⟨?_, ?_⟩
    · rw [le_iff_toNat_le]
      change br.fromBlock.toNat ≤ blk.toNat
      omega
    · rw [le_iff_toNat_le, toNat_max, ← hg]
      exact (le_iff_toNat_le.mp hbl).trans (le_max_right _ _)
  case start_le => exact ⟨hi.start_le.1, UInt64.le_trans hi.start_le.2 hle⟩
  case fresh =>
    intro hf
    rw [(hi.fresh hf).1] at hbr'
    cases hbr'

lemma Inv.finish (hi : r.Inv) (br : BlockRange) (success : Bool) (real : UInt64) :
    ∃ r', r.finish br success real = .ok r' ∧ r'.Inv := by
  rw [SyncRun.finish, onFinishWorker]
  by_cases hbr : br ∈ r.status.processingRanges
  · have hr : removeBlockRange r.status.processingRanges br =
        .ok (r.status.processingRanges.erase br) := if_pos hbr
    rw [hr]
    cases success with
    | true =>
      obtain ⟨last, ho, he, hl⟩ := moveLastBlock_cases
        { r.status with processingRanges := r.status.processingRanges.erase br }
        (getHighestBlockNumberInResponse br real)
      simp only [if_true, ho, Bool.and_self]
      exact ⟨_, rfl, hi.success hbr he hl⟩
    | false =>
      have hbr' : br ∈ r.ranges := mem_append_left _ hbr
      have ha : addBlockRange r.status.errorRanges br = .ok (r.status.errorRanges ++ [br]) := by
        refine addBlockRange_ok (hi.fromBlock_ne_zero hbr') (hi.valid br hbr').2 ?_
        intro b hb
        rw [overlaps_comm]
        exact (pairwise_append.mp hi.disjoint).2.2 br hbr b hb
      simp only [ha, Bool.false_eq_true, if_false, Bool.and_false]
      refine ⟨_, rfl, hi.of_perm ?_ rfl rfl rfl rfl id⟩
      have hm : (r.status.processingRanges.erase br ++ r.status.errorRanges ++ [br]).Perm (br ::
        (r.status.processingRanges.erase br ++ r.status.errorRanges)) := perm_append_singleton _ _
      rw [append_assoc] at hm
      exact hm.trans ((perm_cons_erase hbr).symm.append_right _)
  · have hr : removeBlockRange r.status.processingRanges br = .error .notFound := if_neg hbr
    rw [hr]
    exact ⟨_, rfl, hi⟩

/-! ## Steps and runs -/

lemma inv_of_start (hr : r.ranges = []) (hf : r.status.highestBlockRequested = r.start)
    (hs : r.status.lastBlockStoreOnStateDB = r.start) : r.Inv := by
  have hn : ∀ br, br ∉ r.ranges := by
    rw [hr]
    exact fun _ => not_mem_nil
  constructor
  case disjoint =>
    rw [hr]
    exact .nil
  case valid => exact fun br hb => absurd hb (hn br)
  case bounded => exact fun br hb => absurd hb (hn br)
  case open_ended => exact fun br hb => absurd hb (hn br)
  case requested =>
    intro blk ht hl
    rw [hf] at hl
    exact absurd hl (UInt64.not_le.mpr ht)
  case stored =>
    intro blk ht hl
    rw [hf] at ht
    rw [hs] at hl
    exact absurd hl (UInt64.not_le.mpr ht)
  case start_le =>
    rw [hf, hs]
    exact ⟨UInt64.le_refl _, UInt64.le_refl _⟩
  case fresh => exact fun _ => ⟨hr, hf, hs⟩

/-- A careful step does not end in `log.Fatal`, and keeps the invariant. -/
lemma Inv.step (hi : r.Inv) {ev : SyncEvent} (hc : r.Careful ev) :
    ∃ r', r.step ev = .ok r' ∧ r'.Inv := by
  cases ev with
  | getNextRange => exact hi.handOut false hc
  | launchWorker => exact hi.handOut true hc
  | onFinishWorker br success real => exact hi.finish br success real
  | onNewLastBlockOnL1 lb =>
    refine ⟨_, rfl, hi.of_perm ?_ ?_ ?_ rfl rfl id⟩
    all_goals
      rw [onNewLastBlockOnL1]
      split_ifs
      all_goals rfl
  | reset last =>
    have hr : ([] : List BlockRange) ++ r.status.errorRanges = [] := by
      rw [show r.status.errorRanges = [] from hc, append_nil]
    exact ⟨_, rfl, inv_of_start hr rfl rfl⟩

def start₀ (lastBlockStoreOnStateDB amountOfBlocksInEachRange : UInt64) : SyncRun :=
  ⟨newSyncStatus lastBlockStoreOnStateDB amountOfBlocksInEachRange, lastBlockStoreOnStateDB, [],
    true⟩

variable {events : List SyncEvent}

lemma CarefulRun.cons {ev : SyncEvent} (hs : r.step ev = .ok r') (hc : r.Careful ev)
    (hr : r'.CarefulRun events) : r.CarefulRun (ev :: events) := by
  refine ⟨hc, fun r'' hp => ?_⟩
  cases hs.symm.trans hp
  exact hr

lemma Inv.run (hi : r.Inv) (hc : r.CarefulRun events) : ∃ r', r.run events = .ok r' ∧ r'.Inv := by
  induction events generalizing r with
  | nil => exact ⟨r, rfl, hi⟩
  | cons ev events ih =>
    obtain ⟨r', hs, hv⟩ := hi.step hc.1
    rw [run, hs]
    exact ih hv (hc.2 r' hs)

end SyncRun

/-- Two ranges of which the first fails once. -/
def retriedEvents : List SyncEvent :=
  [.onNewLastBlockOnL1 115, .launchWorker, .launchWorker, .onFinishWorker ⟨101, 111⟩ false 0,
    .launchWorker, .onFinishWorker ⟨101, 111⟩ true 0,
    .onFinishWorker ⟨112, latestBlockNumber⟩ true 113]

lemma carefulRun_retriedEvents : (start₀ 100 10).CarefulRun retriedEvents := by
  refine .cons rfl trivial (.cons rfl ⟨?_, ?_⟩ (.cons rfl ⟨?_, ?_⟩ (.cons rfl trivial
    (.cons rfl ⟨?_, ?_⟩ (.cons rfl trivial (.cons rfl trivial trivial))))))
  all_goals decide

/-- The open-ended range after block 100 fails and is dropped. -/
def droppedEvents : List SyncEvent :=
  [.onNewLastBlockOnL1 105, .launchWorker, .onFinishWorker ⟨101, latestBlockNumber⟩ false 0,
    .getNextRange]

/-- A failed range is still there after the reset. -/
def resetEvents : List SyncEvent :=
  [.onNewLastBlockOnL1 1000, .launchWorker, .launchWorker, .onFinishWorker ⟨112, 122⟩ false 0,
    .reset 100]

end EthdaNode.L1ParallelSync
