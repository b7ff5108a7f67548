import EthdaNode.L1ParallelSync.Filter

/-!
# The producer of the parallel synchronization

The producer launches workers for ranges of blocks and forwards their responses in order. A
reset cancels the workers, but their responses still come through the response channel; only
the ranges that are being processed tell which responses are accepted. A response of an old
request is therefore forwarded if its range is asked for again after the reset.
-/

namespace EthdaNode.L1ParallelSync

open List Subset

/-! ## The producer -/

inductive ProducerStatus where
  | idle | working | synchronized | noRunning | reseting
  deriving DecidableEq

inductive ProducerCmd where
  | nop
  | reset (startingBlockNumber : UInt64)

structure Launched where
  blockRange : BlockRange
  resets : ℕ
  deriving DecidableEq

/-- `responseRollupInfoByBlockRange`; its payload is the number of resets at the launch of the
request. -/
structure Response where
  result : RollupInfoResult ℕ
  isOk : Bool

/-- `L1RollupInfoProducer`, its channels and workers. `resets` counts the resets asked for and done;
`forwarded` has the number of resets at the launch and at the forwarding of all data that went to
the consumer. -/
structure Producer where
  status : ProducerStatus
  syncStatus : SyncStatus
  filter : OrdererFilter ℕ
  workers : List Launched
  responses : List Response
  channelCmds : List ProducerCmd
  outgoingChannel : List (L1SyncMessage ℕ)
  outgoingCapacity : ℕ
  resets : ℕ
  forwarded : List (ℕ × ℕ)

namespace SyncStatus

def doesItHaveAllTheNeedDataToWork (s : SyncStatus) : Bool :=
  s.lastBlockOnL1 ≠ invalidLastBlock && s.lastBlockStoreOnStateDB ≠ invalidBlockNumber

/-- `maximumBlockDistanceFromLatestToFinalized`. -/
def maximumBlockDistance : UInt64 := 96

def blockNumberIsInsideUnsafeArea (s : SyncStatus) (blockNumber : UInt64) : Bool :=
  let blockNumber := if blockNumber = invalidBlockNumber then s.highestBlockRequested
    else blockNumber
  s.lastBlockOnL1 - blockNumber < maximumBlockDistance

/-- The block is found to be unsafe if it is less than 96 blocks before the last one or after it. -/
def FindsUnsafe (s : SyncStatus) (blockNumber : UInt64) : Prop :=
  s.lastBlockOnL1.toNat < blockNumber.toNat + 96 →
    s.blockNumberIsInsideUnsafeArea blockNumber = true

lemma sub_lt_distance_iff (last n : UInt64) : last - n < maximumBlockDistance ↔
    n.toNat ≤ last.toNat ∧ last.toNat < n.toNat + 96 ∨ last.toNat + 2 ^ 64 < n.toNat + 96 := by
  have hl := last.toNat_lt
  have hlt' := n.toNat_lt
  have hm : maximumBlockDistance.toNat = 96 := rfl
  rw [UInt64.lt_iff_toNat_lt, UInt64.toNat_sub, hm]
  omega

/-- An unsafe block is found exactly if it is not after the last one, where the difference wraps
around; for block 0 the highest requested block decides. -/
theorem findsUnsafe_iff (s : SyncStatus) (blockNumber : UInt64) : s.FindsUnsafe blockNumber ↔
    (s.lastBlockOnL1.toNat < blockNumber.toNat + 96 →
    let n := if blockNumber = invalidBlockNumber then s.highestBlockRequested else blockNumber
    n.toNat ≤ s.lastBlockOnL1.toNat ∧ s.lastBlockOnL1.toNat < n.toNat + 96 ∨
    s.lastBlockOnL1.toNat + 2 ^ 64 < n.toNat + 96) := by
  refine forall_congr' fun _ => ?_
  rw [blockNumberIsInsideUnsafeArea, decide_eq_true_iff]
  exact sub_lt_distance_iff _ _

/-- Block 101 while the last known block is 100. -/
theorem not_findsUnsafe_after_last : ¬FindsUnsafe ⟨100, 100, 100, 10, [], []⟩ 101 := by
  intro h
  have hu := h (by decide)
  revert hu
  decide

end SyncStatus

/-- What the environment answers in one step: the new last L1 blocks if they are asked for, and how
many requests find an idle worker. -/
structure StepAnswers where
  lastBlock : Option UInt64
  lastBlockUnsafe : Option UInt64
  idleWorkers : ℕ
  idleWorkersAgain : ℕ

namespace Producer

def fullySyncedMessage (lastBlock : UInt64) : L1SyncMessage ℕ :=
  ⟨false, ⟨⟨0, 0⟩, [], none, 0⟩, true, ⟨.producerIsFullySynced, lastBlock⟩⟩

variable (p : Producer)

def sendPackages (outgoingPackages : List (L1SyncMessage ℕ)) : Producer :=
  { p with
    outgoingChannel := p.outgoingChannel ++ outgoingPackages
    forwarded := p.forwarded ++ (dataOf outgoingPackages).map fun d => (d.payload, p.resets) }

def setStatus (newStatus : ProducerStatus) : Producer :=
  if p.status ≠ newStatus ∧ newStatus = .synchronized then
    { p with status := newStatus }.sendPackages
      [fullySyncedMessage p.syncStatus.lastBlockStoreOnStateDB]
  else { p with status := newStatus }

variable (startingBlockNumber : UInt64)

def resetCall : Producer :=
  { p with
    status := .reseting, outgoingChannel := []
    channelCmds := p.channelCmds ++ [.reset startingBlockNumber], resets := p.resets + 1 }

/-- `resetUnsafe`: the workers are cancelled, which their responses do not depend on. -/
def resetUnsafe : Producer :=
  { p with
    status := .idle, syncStatus := p.syncStatus.reset startingBlockNumber, outgoingChannel := []
    filter := p.filter.reset startingBlockNumber, resets := p.resets + 1 }

def renewLastBlockOnL1IfNeeded (lastBlock : Option UInt64) : Producer :=
  match lastBlock with
  | some lastBlock => { p with syncStatus := (p.syncStatus.onNewLastBlockOnL1 lastBlock).1 }
  | none => p

def canISendNewRequests : Bool :=
  p.filter.pendingResults.length + p.outgoingChannel.length ≤ p.outgoingCapacity

def nextRange (allowNewRequests : Bool) : Except RangeError (SyncStatus × Option BlockRange) :=
  if allowNewRequests then p.syncStatus.getNextRange
  else .ok p.syncStatus.getNextRangeOnlyRetries

/-- The loop of `launchWork` over the idle workers: the producer and the number of launched workers.
-/
def launchLoop (allowNewRequests : Bool) : ℕ → Producer → Except RangeError (Producer × ℕ)
  | 0, p =>
    match p.nextRange allowNewRequests with
    | .error e => .error e
    | .ok (syncStatus, _) => .ok ({ p with syncStatus }, 0)
  | idleWorkers + 1, p =>
    match p.nextRange allowNewRequests with
    | .error e => .error e
    | .ok (syncStatus, none) => .ok ({ p with syncStatus }, 0)
    | .ok (syncStatus, some br) =>
      match syncStatus.onStartedNewWorker br with
      | .error e => .error e
      | .ok syncStatus =>
        match launchLoop allowNewRequests idleWorkers
            { p with syncStatus, workers := p.workers ++ [⟨br, p.resets⟩] } with
        | .error e => .error e
        | .ok (p, launchedWorker) => .ok (p, launchedWorker + 1)

def launchWork (idleWorkers : ℕ) : Except RangeError (Producer × ℕ) :=
  launchLoop p.canISendNewRequests idleWorkers p

def onResponseRollupInfo (response : Response) : Except RangeError Producer :=
  if p.status = .reseting then .ok p
  else
    match p.syncStatus.onFinishWorker response.result.blockRange response.isOk
        (if response.isOk then response.result.getHighestBlockNumberInResponse
          else invalidBlockNumber) with
    | .error e => .error e
    | .ok (syncStatus, isValid) =>
      if isValid && response.isOk then
        .ok ({ p with
          syncStatus
          filter := (p.filter.filter ⟨true, response.result, false, ⟨.none, 0⟩⟩).1
          }.sendPackages (p.filter.filter ⟨true, response.result, false, ⟨.none, 0⟩⟩).2)
      else .ok { p with syncStatus }

inductive Choice where
  | timeout | command | response

def select : Choice → Except RangeError Producer
  | .timeout => .ok p
  | .command =>
    match p.channelCmds with
    | [] => .ok p
    | .nop :: channelCmds => .ok { p with channelCmds }
    | .reset startingBlockNumber :: channelCmds =>
      .ok ({ p with channelCmds }.resetUnsafe startingBlockNumber)
  | .response =>
    match p.responses with
    | [] => .ok p
    | response :: responses => { p with responses }.onResponseRollupInfo response

variable (answers : StepAnswers)

def actIdle : Producer :=
  let p := p.renewLastBlockOnL1IfNeeded answers.lastBlock
  if p.syncStatus.doesItHaveAllTheNeedDataToWork then
    { p.setStatus .working with channelCmds := p.channelCmds ++ [.nop] }
  else p

def renewWorking : Producer :=
  let p := if p.syncStatus.haveRequiredAllBlocksToBeSynchronized then
      p.renewLastBlockOnL1IfNeeded answers.lastBlock
    else p
  if p.syncStatus.blockNumberIsInsideUnsafeArea invalidBlockNumber then
    p.renewLastBlockOnL1IfNeeded answers.lastBlockUnsafe
  else p

def actWorking : Except RangeError Producer :=
  match p.launchWork answers.idleWorkers with
  | .error e => .error e
  | .ok (p, _) =>
    let p := p.renewWorking answers
    if p.syncStatus.isNodeFullySynchronizedWithL1 then .ok (p.setStatus .synchronized)
    else
      match p.launchWork answers.idleWorkersAgain with
      | .error e => .error e
      | .ok (p, _) => .ok p

def actSynchronized : Except RangeError Producer :=
  match (p.renewLastBlockOnL1IfNeeded answers.lastBlock).launchWork answers.idleWorkers with
  | .error e => .error e
  | .ok (p, numLaunched) => .ok (if numLaunched > 0 then p.setStatus .working else p)

/-- A producer that is not running becomes idle at the beginning of a step. -/
def wake : Producer :=
  if p.status = .noRunning then { p with status := .idle } else p

/-- `step`, which nothing interrupts. -/
def step (p : Producer) (choice : Choice) (answers : StepAnswers) : Except RangeError Producer :=
  match p.wake.select choice with
  | .error e => .error e
  | .ok p =>
    match p.status with
    | .idle => .ok (p.actIdle answers)
    | .working => p.actWorking answers
    | .synchronized => p.actSynchronized answers
    | .noRunning => .ok p
    | .reseting => .ok p

/-- The worker puts its response into the channel, whether it was cancelled or not. -/
def respond (i : ℕ) (isOk : Bool) (blocks : List UInt64) (lastBlockOfRange : Option UInt64) :
    Producer :=
  match p.workers[i]? with
  | none => p
  | some worker =>
    { p with
      workers := p.workers.eraseIdx i
      responses := p.responses ++
        [⟨⟨worker.blockRange, blocks, lastBlockOfRange, worker.resets⟩, isOk⟩] }

end Producer

open Producer

inductive ProducerEvent where
  | reset (startingBlockNumber : UInt64)
  | respond (i : ℕ) (isOk : Bool) (blocks : List UInt64) (lastBlockOfRange : Option UInt64)
  | consume
  | step (choice : Choice) (answers : StepAnswers)

namespace Producer

def next (p : Producer) : ProducerEvent → Except RangeError Producer
  | .reset startingBlockNumber => .ok (p.resetCall startingBlockNumber)
  | .respond i isOk blocks lastBlockOfRange => .ok (p.respond i isOk blocks lastBlockOfRange)
  | .consume => .ok { p with outgoingChannel := p.outgoingChannel.tail }
  | .step choice answers => p.step choice answers

def run (p : Producer) : List ProducerEvent → Except RangeError Producer
  | [] => .ok p
  | event :: events =>
    match p.next event with
    | .error e => .error e
    | .ok p => p.run events

/-- The requests whose responses are still to come or wait in the channel. -/
def outstanding (p : Producer) : List Launched :=
  p.workers ++ p.responses.map fun r => ⟨r.result.blockRange, r.result.payload⟩

def LaunchesNew (allowNewRequests : Bool) : ℕ → Producer → Prop
  | 0, _ => True
  | idleWorkers + 1, p =>
    ∀ syncStatus br, p.nextRange allowNewRequests = .ok (syncStatus, some br) →
      (∀ request ∈ p.outstanding, request.blockRange ≠ br) ∧
        ∀ syncStatus', syncStatus.onStartedNewWorker br = .ok syncStatus' →
          LaunchesNew allowNewRequests idleWorkers
            { p with syncStatus := syncStatus', workers := p.workers ++ [⟨br, p.resets⟩] }

/-- Whenever the loop launches workers, it does not ask for the range of an outstanding
request. -/
def Careful (p : Producer) : ProducerEvent → Prop
  | .step choice answers =>
    ∀ p', p.wake.select choice = .ok p' → (p'.status = .working →
        LaunchesNew p'.canISendNewRequests answers.idleWorkers p' ∧
          ∀ p'' n, p'.launchWork answers.idleWorkers = .ok (p'', n) →
            LaunchesNew (p''.renewWorking answers).canISendNewRequests
              answers.idleWorkersAgain (p''.renewWorking answers)) ∧
      (p'.status = .synchronized →
        LaunchesNew (p'.renewLastBlockOnL1IfNeeded answers.lastBlock).canISendNewRequests
          answers.idleWorkers (p'.renewLastBlockOnL1IfNeeded answers.lastBlock))
  | _ => True

def CarefulRun (p : Producer) : List ProducerEvent → Prop
  | [] => True
  | event :: events => p.Careful event ∧ ∀ p', p.next event = .ok p' → p'.CarefulRun events

end Producer

namespace SyncStatus

variable {s s' : SyncStatus} {br : BlockRange}

lemma ranges_nextRetry (s : SyncStatus) :
    s.getNextRangeOnlyRetries.1.processingRanges = s.processingRanges := by
  rw [getNextRangeOnlyRetries]
  rcases getFirstBlockRange s.errorRanges with e | br
  · rfl
  by_cases hl : br.toBlock = latestBlockNumber
  · simp only [if_pos hl]
    cases removeBlockRange s.errorRanges br with
    | _ => rfl
  · simp only [if_neg hl]

lemma processingRanges_getNextRange {next : Option BlockRange}
    (h : s.getNextRange = .ok (s', next)) : s'.processingRanges = s.processingRanges := by
  have hr := ranges_nextRetry s
  rw [getNextRange] at h
  cases hx : s.getNextRangeOnlyRetries with
  | mk status retry =>
    rw [hx] at h hr
    cases retry with
    | some br =>
      cases h
      exact hr
    | none =>
      cases hn : status.getNewRange with
      | error e =>
        simp only [hn] at h
        cases h
      | ok br =>
        simp only [hn] at h
        cases h
        exact hr

lemma ranges_onStarted (h : s.onStartedNewWorker br = .ok s') :
    s'.processingRanges = s.processingRanges ++ [br] := by
  rw [onStartedNewWorker] at h
  rcases ha : addBlockRange s.processingRanges br with e | pr
  · rw [ha] at h
    cases h
  rw [ha] at h
  cases h
  rw [addBlockRange] at ha
  rcases hv : br.isValid with e | _
  · rw [hv] at ha
    cases ha
  rw [hv] at ha
  dsimp only at ha
  split_ifs at ha
  exact (Except.ok.inj ha).symm

lemma ranges_onFinish {success isValid : Bool} {hi : UInt64}
    (h : s.onFinishWorker br success hi = .ok (s', isValid)) :
    s'.processingRanges ⊆ s.processingRanges ∧ (isValid = true → br ∈ s.processingRanges) := by
  rw [onFinishWorker] at h
  by_cases hb : br ∈ s.processingRanges
  · have hr : removeBlockRange s.processingRanges br = .ok (s.processingRanges.erase br) :=
      if_pos hb
    rw [hr] at h
    refine ⟨?_, fun _ => hb⟩
    cases success with
    | true =>
      obtain ⟨last, hm, -⟩ := SyncRun.moveLastBlock_cases
        { s with processingRanges := s.processingRanges.erase br } hi
      simp only [if_true, hm] at h
      cases h
      exact erase_subset
    | false =>
      cases ha : addBlockRange s.errorRanges br with
      | error e =>
        simp only [ha, Bool.false_eq_true, if_false] at h
        cases h
      | ok er =>
        simp only [ha, Bool.false_eq_true, if_false] at h
        cases h
        exact erase_subset
  · have hr : removeBlockRange s.processingRanges br = .error .notFound := if_neg hb
    rw [hr] at h
    cases h
    exact ⟨refl _, fun h => by cases h⟩

lemma ranges_onNewLast (s : SyncStatus) (last : UInt64) :
    (s.onNewLastBlockOnL1 last).1.processingRanges = s.processingRanges := by
  rw [onNewLastBlockOnL1]
  split_ifs
  all_goals rfl

end SyncStatus

namespace OrdererFilter

variable {α : Type}

lemma filter_subset (s : OrdererFilter α) (data : L1SyncMessage α) :
    (s.filter data).1.pendingResults ⊆ s.pendingResults ++ [data] ∧
    (s.filter data).2 ⊆ s.pendingResults ++ [data] := by
  have hs := (s.filter_perm data).subset
  exact ⟨fun m hm => hs (mem_append_right _ hm), fun m hm => hs (mem_append_left _ hm)⟩

end OrdererFilter

namespace Producer

variable {p p' : Producer}

/-- Responses that can be accepted, and the data in the filter, are from requests after the last
reset. -/
structure Fresh (p : Producer) : Prop where
  outstanding : ∀ request ∈ p.outstanding, request.blockRange ∈ p.syncStatus.processingRanges →
    request.resets = p.resets
  pending : ∀ m ∈ p.filter.pendingResults, m.dataIsValid = true → m.data.payload = p.resets

/-- Nothing old was forwarded, and unless a reset is under way nothing old can be. -/
structure Inv (p : Producer) : Prop where
  fresh : p.status ≠ .reseting → p.Fresh
  forwarded : ∀ x ∈ p.forwarded, x.1 = x.2

lemma Fresh.congr (h : p.Fresh) (ho : p'.outstanding ⊆ p.outstanding)
    (hpr : p'.syncStatus.processingRanges ⊆ p.syncStatus.processingRanges)
    (hp : p'.filter.pendingResults ⊆ p.filter.pendingResults) (hr : p'.resets = p.resets) :
    p'.Fresh where
  outstanding := by
    intro req hq hn
    rw [hr]
    exact h.outstanding req (ho hq) (hpr hn)
  pending := by
    intro m hm hd
    rw [hr]
    exact h.pending m (hp hm) hd

lemma Inv.sendPackages (h : p.Inv) {msgs : List (L1SyncMessage ℕ)}
    (hms : ∀ m ∈ msgs, m.dataIsValid = true → m.data.payload = p.resets) :
    (p.sendPackages msgs).Inv where
  fresh := fun hs =>
    (h.fresh hs).congr (refl _) (refl _) (refl _) rfl
  forwarded := by
    intro x hx
    rcases mem_append.mp hx with hx | hx
    · exact h.forwarded x hx
    obtain ⟨d, hd, rfl⟩ := mem_map.mp hx
    obtain ⟨m, hm, rfl⟩ := mem_map.mp hd
    obtain ⟨hm, ht⟩ := mem_filter.mp hm
    exact hms m hm ht

lemma Inv.setStatus (h : p.Inv) (ht : p.status ≠ .reseting) (ns : ProducerStatus) :
    (p.setStatus ns).Inv := by
  have hs : { p with status := ns }.Inv :=
    ⟨fun _ => (h.fresh ht).congr (refl _) (refl _) (refl _) rfl, h.forwarded⟩
  rw [Producer.setStatus]
  split_ifs
  · refine hs.sendPackages fun m hm hd => ?_
    obtain rfl := mem_singleton.mp hm
    cases hd
  · exact hs

variable {syncStatus : SyncStatus}

lemma Inv.withSyncStatus (h : p.Inv)
    (hp : syncStatus.processingRanges ⊆ p.syncStatus.processingRanges) :
    { p with syncStatus }.Inv :=
  ⟨fun hs => (h.fresh hs).congr (refl _) hp (refl _) rfl, h.forwarded⟩

lemma Inv.renew (h : p.Inv) (last : Option UInt64) : (p.renewLastBlockOnL1IfNeeded last).Inv ∧
    (p.renewLastBlockOnL1IfNeeded last).status = p.status := by
  rcases last with _ | last
  · exact ⟨h, rfl⟩
  refine ⟨h.withSyncStatus ?_, rfl⟩
  rw [SyncStatus.ranges_onNewLast]
  exact refl _

variable {allow : Bool}

lemma processingRanges_nextRange {next : Option BlockRange} (h : p.nextRange allow =
    .ok (syncStatus, next)) : syncStatus.processingRanges = p.syncStatus.processingRanges := by
  rw [nextRange] at h
  split_ifs at h
  · exact SyncStatus.processingRanges_getNextRange h
  have hr := SyncStatus.ranges_nextRetry p.syncStatus
  rw [Except.ok.inj h] at hr
  exact hr

lemma Fresh.launch (h : p.Fresh) {br : BlockRange}
    (hp : syncStatus.processingRanges = p.syncStatus.processingRanges ++ [br])
    (hn : ∀ req ∈ p.outstanding, req.blockRange ≠ br) :
    { p with syncStatus, workers := p.workers ++ [Launched.mk br p.resets] }.Fresh where
  outstanding := by
    intro req hr hrn
    rw [Producer.outstanding, append_assoc, mem_append, mem_append, mem_singleton] at hr
    have ho : req ∈ p.outstanding → req.resets = p.resets := by
      intro hr
      rw [hp, mem_append, mem_singleton] at hrn
      exact h.outstanding req hr (hrn.resolve_right (hn req hr))
    rcases hr with hr | rfl | hr
    · exact ho (mem_append_left _ hr)
    · rfl
    · exact ho (mem_append_right _ hr)
  pending := h.pending

/-! ## Steps -/

lemma Inv.nextRange {next : Option BlockRange} (h : p.Inv)
    (hn : p.nextRange allow = .ok (syncStatus, next)) :
    { p with syncStatus }.Inv := by
  refine h.withSyncStatus ?_
  rw [processingRanges_nextRange hn]
  exact refl _

lemma Inv.launchLoop {iw n : ℕ} (h : p.Inv) (ht : p.status ≠ .reseting)
    (hw : LaunchesNew allow iw p) (hl : launchLoop allow iw p = .ok (p', n)) : p'.Inv ∧ p'.status =
    p.status := by
  induction iw generalizing p n with
  | zero =>
    rw [launchLoop] at hl
    rcases hn : p.nextRange allow with e | next
    · rw [hn] at hl
      cases hl
    obtain ⟨syncStatus, next⟩ := next
    rw [hn] at hl
    cases hl
    exact ⟨h.nextRange hn, rfl⟩
  | succ iw ih =>
    rw [launchLoop] at hl
    rcases hn : p.nextRange allow with e | next
    · rw [hn] at hl
      cases hl
    obtain ⟨syncStatus, next⟩ := next
    rw [hn] at hl
    rcases next with _ | br
    · cases hl
      exact ⟨h.nextRange hn, rfl⟩
    obtain ⟨hb, hr⟩ := hw syncStatus br hn
    rcases hs : syncStatus.onStartedNewWorker br with e | ss'
    · simp only [hs] at hl
      cases hl
    simp only [hs] at hl
    have hp : ss'.processingRanges = p.syncStatus.processingRanges ++ [br] := by
      rw [SyncStatus.ranges_onStarted hs, processingRanges_nextRange hn]
    have hinv' : { p with
        syncStatus := ss'
        workers := p.workers ++ [Launched.mk br p.resets] }.Inv :=
      ⟨fun _ => (h.fresh ht).launch hp hb, h.forwarded⟩
    cases hlp : launchLoop allow iw
        { p with
          syncStatus := ss'
          workers := p.workers ++ [Launched.mk br p.resets] } with
    | error e =>
      rw [hlp] at hl
      cases hl
    | ok launched =>
      obtain ⟨p'', k⟩ := launched
      rw [hlp] at hl
      cases hl
      have hrest' := ih hinv' ht (hr ss' hs) hlp
      exact hrest'

lemma Inv.onResponse (h : p.Inv) {resp : Response} {responses : List Response}
    (hrs : p.responses = resp :: responses)
    (hn : { p with responses }.onResponseRollupInfo resp = .ok p') : p'.Inv := by
  have hb : { p with responses }.outstanding ⊆ p.outstanding := by
    intro req hr
    rw [outstanding, hrs, map_cons]
    rcases mem_append.mp hr with hr | hr
    · exact mem_append_left _ hr
    · exact mem_append_right _ (.tail _ hr)
  have hi : { p with responses }.Inv :=
    ⟨fun ht => (h.fresh ht).congr hb (refl _) (refl _) rfl, h.forwarded⟩
  rw [onResponseRollupInfo] at hn
  by_cases ht : p.status = .reseting
  · rw [if_pos ht] at hn
    cases hn
    exact hi
  rw [if_neg ht] at hn
  cases hf : p.syncStatus.onFinishWorker resp.result.blockRange resp.isOk
      (if resp.isOk then resp.result.getHighestBlockNumberInResponse
        else invalidBlockNumber) with
  | error e =>
    rw [hf] at hn
    cases hn
  | ok finished =>
    obtain ⟨syncStatus, isValid⟩ := finished
    obtain ⟨hpr, hv⟩ := SyncStatus.ranges_onFinish hf
    have hfr := hi.withSyncStatus hpr
    rw [hf] at hn
    dsimp only at hn
    split_ifs at hn with hc
    · -- The range was being processed, so that the req is not an old one.
      have he : resp.result.payload = p.resets := by
        refine (h.fresh ht).outstanding ⟨resp.result.blockRange, _⟩ ?_
          (hv (Bool.and_eq_true_iff.mp hc).1)
        rw [outstanding, hrs, map_cons]
        exact mem_append_right _ (.head _)
      have ha : ∀ m ∈ p.filter.pendingResults ++ [⟨true, resp.result, false, ⟨.none, 0⟩⟩],
          m.dataIsValid = true → m.data.payload = p.resets := by
        intro m hm hd
        rcases mem_append.mp hm with hm | hm
        · exact (h.fresh ht).pending m hm hd
        · obtain rfl := mem_singleton.mp hm
          exact he
      obtain ⟨hp, hsn⟩ := p.filter.filter_subset ⟨true, resp.result, false, ⟨.none, 0⟩⟩
      have hl : { p with
          responses, syncStatus
          filter := (p.filter.filter ⟨true, resp.result, false, ⟨.none, 0⟩⟩).1 }.Inv :=
        ⟨fun hs => ⟨(hfr.fresh hs).outstanding, fun m hm => ha m (hp hm)⟩, h.forwarded⟩
      cases hn
      exact hl.sendPackages fun m hm => ha m (hsn hm)
    · cases hn
      exact hfr

lemma Inv.resetUnsafe (h : p.Inv) (startingBlockNumber : UInt64) :
    (p.resetUnsafe startingBlockNumber).Inv := by
  refine ⟨fun _ => ⟨fun _ _ hr => ?_, fun _ hm => ?_⟩, h.forwarded⟩
  · cases hr
  · cases hm

lemma Inv.withChannelCmds (h : p.Inv) (channelCmds : List ProducerCmd) :
    { p with channelCmds }.Inv :=
  ⟨fun hs => ⟨(h.fresh hs).outstanding, (h.fresh hs).pending⟩, h.forwarded⟩

variable {choice : Choice}

lemma Inv.select (h : p.Inv) (hs : p.select choice = .ok p') : p'.Inv := by
  cases choice with
  | timeout =>
    cases hs
    exact h
  | command =>
    rw [select] at hs
    rcases hc : p.channelCmds with _ | ⟨cmd, channelCmds⟩
    · rw [hc] at hs
      cases hs
      exact h
    rw [hc] at hs
    cases cmd with
    | nop =>
      cases hs
      exact h.withChannelCmds channelCmds
    | reset startingBlockNumber =>
      cases hs
      exact (h.withChannelCmds channelCmds).resetUnsafe startingBlockNumber
  | response =>
    rw [select] at hs
    cases hr : p.responses with
    | nil =>
      rw [hr] at hs
      cases hs
      exact h
    | cons response responses =>
      rw [hr] at hs
      exact h.onResponse hr hs

lemma Inv.actIdle (h : p.Inv) (hs : p.status = .idle) (ans : StepAnswers) :
    (p.actIdle ans).Inv := by
  obtain ⟨hr, he⟩ := h.renew ans.lastBlock
  rw [Producer.actIdle]
  dsimp only
  split_ifs
  · refine (hr.setStatus ?_ .working).withChannelCmds _
    rw [he, hs]
    nofun
  · exact hr

lemma Inv.renewIf (h : p.Inv) (needed : Bool) (last : Option UInt64) :
    (if needed then p.renewLastBlockOnL1IfNeeded last else p).Inv ∧
    (if needed then p.renewLastBlockOnL1IfNeeded last else p).status = p.status := by
  cases needed with
  | true => exact h.renew last
  | false => exact ⟨h, rfl⟩

lemma Inv.renewWorking (h : p.Inv) (ans : StepAnswers) :
    (p.renewWorking ans).Inv ∧ (p.renewWorking ans).status = p.status := by
  obtain ⟨hi, ht⟩ := h.renewIf p.syncStatus.haveRequiredAllBlocksToBeSynchronized ans.lastBlock
  obtain ⟨hn, hs⟩ := hi.renewIf (SyncStatus.blockNumberIsInsideUnsafeArea
    (if p.syncStatus.haveRequiredAllBlocksToBeSynchronized then
      p.renewLastBlockOnL1IfNeeded ans.lastBlock else p).syncStatus invalidBlockNumber)
    ans.lastBlockUnsafe
  exact ⟨hn, hs.trans ht⟩

variable {answers : StepAnswers}

lemma Inv.actWorking (h : p.Inv) (hs : p.status = .working)
    (hw : LaunchesNew p.canISendNewRequests answers.idleWorkers p)
    (hA : ∀ p' n, p.launchWork answers.idleWorkers = .ok (p', n) →
    LaunchesNew (p'.renewWorking answers).canISendNewRequests answers.idleWorkersAgain
    (p'.renewWorking answers)) (ha : p.actWorking answers = .ok p') : p'.Inv := by
  have hn : p.status ≠ .reseting := by
    rw [hs]
    nofun
  rw [Producer.actWorking] at ha
  rcases hl : p.launchWork answers.idleWorkers with e | launched
  · rw [hl] at ha
    cases ha
  obtain ⟨p₁, n⟩ := launched
  obtain ⟨hinv₁, hstat₁⟩ := h.launchLoop hn hw hl
  obtain ⟨hinv₂, hstat₂⟩ := hinv₁.renewWorking answers
  have hne₂ : (p₁.renewWorking answers).status ≠ .reseting := by
    rw [hstat₂, hstat₁]
    exact hn
  rw [hl] at ha
  dsimp only at ha
  split_ifs at ha
  · cases ha
    exact hinv₂.setStatus hne₂ .synchronized
  cases hg : (p₁.renewWorking answers).launchWork answers.idleWorkersAgain with
  | error e =>
    rw [hg] at ha
    cases ha
  | ok launched =>
    obtain ⟨p₂, n'⟩ := launched
    rw [hg] at ha
    cases ha
    exact (hinv₂.launchLoop hne₂ (hA p₁ n hl) hg).1

lemma Inv.actSynchronized (h : p.Inv) (hs : p.status = .synchronized)
    (hw : LaunchesNew (p.renewLastBlockOnL1IfNeeded answers.lastBlock).canISendNewRequests
    answers.idleWorkers (p.renewLastBlockOnL1IfNeeded answers.lastBlock))
    (ha : p.actSynchronized answers = .ok p') : p'.Inv := by
  obtain ⟨hinv₁, hstat₁⟩ := h.renew answers.lastBlock
  have hn : (p.renewLastBlockOnL1IfNeeded answers.lastBlock).status ≠ .reseting := by
    rw [hstat₁, hs]
    nofun
  rw [Producer.actSynchronized] at ha
  cases hl : (p.renewLastBlockOnL1IfNeeded answers.lastBlock).launchWork answers.idleWorkers with
  | error e =>
    rw [hl] at ha
    cases ha
  | ok launched =>
    obtain ⟨p₂, n⟩ := launched
    obtain ⟨hinv₂, hstat₂⟩ := hinv₁.launchLoop hn hw hl
    rw [hl] at ha
    dsimp only at ha
    split_ifs at ha
    · cases ha
      exact hinv₂.setStatus (by rw [hstat₂]; exact hn) .working
    · cases ha
      exact hinv₂

lemma Inv.wake (h : p.Inv) : p.wake.Inv := by
  rw [Producer.wake]
  split_ifs with hs
  · have hn : p.status ≠ .reseting := by
      rw [hs]
      nofun
    exact ⟨fun _ => ⟨(h.fresh hn).outstanding, (h.fresh hn).pending⟩, h.forwarded⟩
  · exact h

lemma Inv.step (h : p.Inv) {choice : Choice} {ans : StepAnswers} (hc : p.Careful (.step choice ans))
    (hs : p.step choice ans = .ok p') : p'.Inv := by
  rw [Producer.step] at hs
  rcases hl : p.wake.select choice with e | p₁
  · rw [hl] at hs
    cases hs
  have hi := h.wake.select hl
  obtain ⟨hw, hy⟩ := hc p₁ hl
  rw [hl] at hs
  dsimp only at hs
  rcases ht : p₁.status with _ | _ | _ | _ | _
  · simp only [ht] at hs
    cases hs
    exact hi.actIdle ht ans
  · simp only [ht] at hs
    obtain ⟨hnw, hn⟩ := hw ht
    exact hi.actWorking ht hnw hn hs
  · simp only [ht] at hs
    exact hi.actSynchronized ht (hy ht) hs
  · simp only [ht] at hs
    cases hs
    exact hi
  simp only [ht] at hs
  cases hs
  exact hi

lemma Inv.respond (h : p.Inv) (i : ℕ) (isOk : Bool) (blocks : List UInt64)
    (lastBlockOfRange : Option UInt64) : (p.respond i isOk blocks lastBlockOfRange).Inv := by
  rw [Producer.respond]
  rcases hw : p.workers[i]? with _ | worker
  · exact h
  refine ⟨fun hs => (h.fresh hs).congr ?_ (refl _) (refl _) rfl, h.forwarded⟩
  intro req hr
  rw [outstanding, map_append, map_singleton] at hr
  rcases mem_append.mp hr with hr | hr
  · exact mem_append_left _ (eraseIdx_subset hr)
  rcases mem_append.mp hr with hr | hr
  · exact mem_append_right _ hr
  · obtain rfl := mem_singleton.mp hr
    exact mem_append_left _ (mem_of_getElem? hw)

variable {event : ProducerEvent}

lemma Inv.next (h : p.Inv) (hc : p.Careful event) (hn : p.next event = .ok p') : p'.Inv := by
  cases event with
  | reset startingBlockNumber =>
    cases hn
    exact ⟨fun hs => absurd rfl hs, h.forwarded⟩
  | respond i isOk blocks lbo =>
    cases hn
    exact h.respond i isOk blocks lbo
  | consume =>
    cases hn
    exact ⟨fun hs => ⟨(h.fresh hs).outstanding, (h.fresh hs).pending⟩, h.forwarded⟩
  | step choice answers => exact h.step hc hn

variable {events : List ProducerEvent}

lemma Inv.run (h : p.Inv) (hc : p.CarefulRun events) (hr : p.run events = .ok p') : p'.Inv := by
  induction events generalizing p with
  | nil =>
    cases hr
    exact h
  | cons event events ih =>
    rw [run] at hr
    cases hn : p.next event with
    | error e =>
      rw [hn] at hr
      cases hr
    | ok p₁ =>
      rw [hn] at hr
      exact ih (h.next hc.1 hn) (hc.2 p₁ hn) hr

/-- The producer of `NewL1DataRetriever` when `Start` begins its loop, with the resets that
were asked for before. -/
def started (syncChunkSize : UInt64) (outgoingCapacity : ℕ) (resets : List UInt64) : Producer where
  status := .idle
  syncStatus := newSyncStatus invalidBlockNumber syncChunkSize
  filter := .new invalidBlockNumber
  workers := []
  responses := []
  channelCmds := resets.map .reset
  outgoingChannel := []
  outgoingCapacity
  resets := resets.length
  forwarded := []

lemma Inv.started (chunkSize : UInt64) (cap : ℕ) (rst : List UInt64) :
    (started chunkSize cap rst).Inv := by
  refine ⟨fun _ => ⟨fun _ _ hr => ?_, fun _ hm => ?_⟩, fun _ hx => ?_⟩
  · cases hr
  · cases hm
  · cases hx

/-- If no range is launched that an outstanding request has too, then no data is forwarded with a
reset since its launch. -/
theorem forwarded_without_reset (syncChunkSize : UInt64) (outgoingCapacity : ℕ)
    (resets : List UInt64) (events : List ProducerEvent) (p : Producer)
    (hcare : (started syncChunkSize outgoingCapacity resets).CarefulRun events)
    (hrun : (started syncChunkSize outgoingCapacity resets).run events = .ok p) :
    ∀ data ∈ p.forwarded, data.1 = data.2 :=
  ((Inv.started syncChunkSize outgoingCapacity resets).run hcare hrun).forwarded

lemma CarefulRun.cons (hc : p.Careful event) (hn : p.next event = .ok p')
    (hr : p'.CarefulRun events) : p.CarefulRun (event :: events) := by
  refine ⟨hc, fun p'' hx => ?_⟩
  cases hn.symm.trans hx
  exact hr

lemma Careful.of_not_working (hl : p.wake.select choice = .ok p') (hw : p'.status ≠ .working)
    (hy : p'.status ≠ .synchronized) : p.Careful (.step choice answers) := by
  intro p'' he
  cases hl.symm.trans he
  exact ⟨fun hs => absurd hs hw, fun hs => absurd hs hy⟩

lemma Careful.of_working {last lbu : Option UInt64} (he : p.wake.select choice = .ok p')
    (hs : p'.status = .working) (ho : p'.outstanding = []) : p.Careful
    (.step choice ⟨last, lbu, 1, 0⟩) := by
  intro p'' hl
  cases he.symm.trans hl
  refine ⟨fun _ => ⟨fun _ br _ => ⟨?_, fun _ _ => trivial⟩, fun _ _ _ => trivial⟩, ?_⟩
  · rw [ho]
    nofun
  · rw [hs]
    nofun

/-- Block 103 of the range asked for before the second reset is forwarded after it, as the same
range is asked for again. -/
theorem forwarded_after_reset :
    ∃ events p, (started 10 4 [100]).run events = .ok p ∧ p.forwarded = [(2, 4)] :=
  ⟨[.step .command ⟨some 105, none, 0, 0⟩, .step .command ⟨none, none, 1, 0⟩, .reset 100,
    .step .command ⟨none, none, 0, 0⟩, .step .command ⟨none, none, 1, 0⟩,
    .respond 0 true [103] none, .step .response ⟨none, none, 0, 0⟩], _, rfl, by decide⟩

/-- The first response is taken before the second reset is done. -/
def resetEvents : List ProducerEvent :=
  [.step .command ⟨some 105, none, 0, 0⟩, .step .command ⟨none, none, 1, 0⟩,
    .respond 0 true [103] none, .reset 100, .step .response ⟨none, none, 0, 0⟩,
    .step .command ⟨none, none, 0, 0⟩, .step .command ⟨none, none, 1, 0⟩,
    .respond 0 true [103] none, .step .response ⟨none, none, 1, 0⟩]

theorem forwarded_without_reset_twice : ∃ p, (started 10 4 [100]).run resetEvents = .ok p ∧
    p.forwarded = [(4, 4)] ∧ ∀ data ∈ p.forwarded, data.1 = data.2 := by
  refine ⟨_, rfl, by decide, forwarded_without_reset 10 4 [100] resetEvents _ ?_ rfl⟩
  refine .cons (.of_not_working rfl (by decide) (by decide)) rfl ?_
  refine .cons (.of_working rfl rfl rfl) rfl ?_
  refine .cons trivial rfl (.cons trivial rfl ?_)
  refine .cons (.of_not_working rfl (by decide) (by decide)) rfl ?_
  refine .cons (.of_not_working rfl (by decide) (by decide)) rfl ?_
  refine .cons (.of_working rfl rfl rfl) rfl ?_
  exact .cons trivial rfl (.cons (.of_working rfl rfl rfl) rfl trivial)

end Producer

end EthdaNode.L1ParallelSync
