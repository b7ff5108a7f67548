import EthdaNode.Sequencer.TxTracker
import EthdaNode.Support.AtomicLog

/-!
# The data streamer

`sendDataToStreamer`: the loop that writes L2 blocks, bookmarks and batch bounds to
the stream server, each message in an atomic operation of its own.
-/

namespace EthdaNode.Sequencer

open State (Address)
open Go Go.Outcome List AtomicLog Nat

namespace Datastream

/-! ## Messages and entries -/

inductive BookmarkType where
  | unspecified
  | batch
  | l2Block
  deriving DecidableEq

structure BookMark where
  type : BookmarkType
  value : UInt64
  deriving DecidableEq

inductive BatchType where
  | unspecified
  | regular
  | forced
  | injected
  deriving DecidableEq

structure BatchStart where
  number : UInt64
  type : BatchType
  forkId : UInt64
  chainId : UInt64
  deriving DecidableEq

structure BatchEnd where
  number : UInt64
  localExitRoot : List UInt8
  stateRoot : List UInt8
  deriving DecidableEq

structure StreamL2Block where
  number : UInt64
  batchNumber : UInt64
  timestamp : UInt64
  deltaTimestamp : UInt32
  minTimestamp : UInt64
  l1Blockhash : List UInt8
  l1InfotreeIndex : UInt32
  hash : List UInt8
  stateRoot : List UInt8
  globalExitRoot : List UInt8
  coinbase : List UInt8
  deriving DecidableEq

structure StreamTransaction where
  l2BlockNumber : UInt64
  isValid : Bool
  encoded : List UInt8
  effectiveGasPricePercentage : UInt32
  imStateRoot : List UInt8
  deriving DecidableEq

inductive Entry where
  | bookmark (bookMark : BookMark)
  | l2Block (block : StreamL2Block)
  | transaction (tx : StreamTransaction)
  | batchStart (data : BatchStart)
  | batchEnd (data : BatchEnd)
  deriving DecidableEq

structure DSL2Transaction where
  l2BlockNumber : UInt64
  imStateRoot : Hash
  effectiveGasPricePercentage : UInt8
  isValid : UInt8
  encoded : List UInt8
  deriving DecidableEq

structure DSL2FullBlock where
  batchNumber : UInt64
  l2BlockNumber : UInt64
  timestamp : UInt64
  minTimestamp : UInt64
  l1InfoTreeIndex : UInt32
  l1BlockHash : Hash
  globalExitRoot : Hash
  coinbase : Address
  forkID : UInt64
  blockHash : Hash
  stateRoot : Hash
  txs : List DSL2Transaction
  deriving DecidableEq

inductive Message where
  | l2Block (data : DSL2FullBlock)
  | bookMark (data : BookMark)
  | batchStart (data : BatchStart)
  | batchEnd (data : BatchEnd)
  | invalid
  deriving DecidableEq

def forkIdEtrog : UInt64 := 7

def l2BlockBookMark (l2BlockNumber : UInt64) : BookMark := ⟨.l2Block, l2BlockNumber⟩

variable (l2Block : DSL2FullBlock)

def streamL2Block (previousTimestamp : UInt64) : StreamL2Block where
  number := l2Block.l2BlockNumber
  batchNumber := l2Block.batchNumber
  timestamp := l2Block.timestamp
  deltaTimestamp := (l2Block.timestamp - previousTimestamp).toUInt32
  minTimestamp := l2Block.minTimestamp
  l1Blockhash := l2Block.l1BlockHash.bytes
  l1InfotreeIndex := l2Block.l1InfoTreeIndex
  hash := l2Block.blockHash.bytes
  stateRoot := l2Block.stateRoot.bytes
  globalExitRoot := l2Block.globalExitRoot.bytes
  coinbase := l2Block.coinbase.bytes

variable (tx : DSL2Transaction)

def streamL2Transaction : StreamTransaction where
  l2BlockNumber := tx.l2BlockNumber
  isValid := tx.isValid != 0
  encoded := tx.encoded
  effectiveGasPricePercentage := tx.effectiveGasPricePercentage.toUInt32
  imStateRoot :=
    if l2Block.forkID > forkIdEtrog then replicate 32 0 else tx.imStateRoot.bytes

/-! ## The stream server -/

inductive CallKind where
  | start
  | inside
  | rollback
  deriving DecidableEq

structure Call where
  kind : CallKind
  ok : Bool
  deriving DecidableEq

structure Server where
  log : AtomicLog Entry
  calls : List Call
  deriving DecidableEq

namespace Server

def call (fails : ℕ → Bool) (kind : CallKind) (allowed : Bool)
    (effect : AtomicLog Entry → AtomicLog Entry) (s : Server) : Server × Bool :=
  let ok := allowed && !fails s.calls.length
  (⟨if ok then effect s.log else s.log, s.calls ++ [⟨kind, ok⟩]⟩, ok)

def startAtomicOp (fails : ℕ → Bool) (s : Server) : Server × Bool :=
  s.call fails .start s.log.op.isNone AtomicLog.start

def commitAtomicOp (fails : ℕ → Bool) (s : Server) : Server × Bool :=
  s.call fails .inside s.log.op.isSome commit

def rollbackAtomicOp (fails : ℕ → Bool) (s : Server) : Server × Bool :=
  s.call fails .rollback true rollback

inductive Work where
  | marshal
  | unmarshal
  | getFirstEventAfterBookmark (bookMark : BookMark)
  | addStreamBookmark (bookMark : BookMark)
  | addStreamEntry (entry : Entry)
  deriving DecidableEq

def Work.entries : Work → List Entry
  | .addStreamBookmark bookMark => [.bookmark bookMark]
  | .addStreamEntry entry => [entry]
  | _ => []

def work (fails : ℕ → Bool) (w : Work) (s : Server) : Server × Bool :=
  match w with
  | .marshal => s.call fails .inside true id
  | .unmarshal => s.call fails .inside true id
  | .getFirstEventAfterBookmark _ => s.call fails .inside true id
  | .addStreamBookmark bookMark =>
    s.call fails .inside s.log.op.isSome (add (.bookmark bookMark))
  | .addStreamEntry entry => s.call fails .inside s.log.op.isSome (add entry)

def works (fails : ℕ → Bool) : List Work → Server → Server × Bool
  | [], s => (s, true)
  | w :: ws, s =>
    let r := s.work fails w
    if r.2 then works fails ws r.1 else r

end Server

open Server

def l2BlockWorks (previousTimestamp : UInt64 → UInt64) (l2Block : DSL2FullBlock) : List Work :=
  [.marshal, .addStreamBookmark (l2BlockBookMark l2Block.l2BlockNumber)] ++
    (if l2Block.l2BlockNumber > 0 then
      [.marshal, .getFirstEventAfterBookmark (l2BlockBookMark (l2Block.l2BlockNumber - 1)),
        .unmarshal]
    else []) ++
    [.marshal, .addStreamEntry (.l2Block (streamL2Block l2Block
      (if l2Block.l2BlockNumber > 0 then previousTimestamp (l2Block.l2BlockNumber - 1)
      else 0)))]

def txWorks : List Work :=
  [.marshal, .addStreamEntry (.transaction (streamL2Transaction l2Block tx))]

/-- The case of an L2 block in an open operation. Errors do not reach the variable that the loop
reads; after one at a transaction the next one follows. -/
def fillL2Block (fails : ℕ → Bool) (previousTimestamp : UInt64 → UInt64)
    (l2Block : DSL2FullBlock) (s : Server) : Server :=
  let r := s.works fails (l2BlockWorks previousTimestamp l2Block)
  if r.2 then
    let s := l2Block.txs.foldl (fun s tx => (s.works fails (txWorks l2Block tx)).1) r.1
    (s.commitAtomicOp fails).1
  else r.1

def fillSingle (fails : ℕ → Bool) (w : Work) (s : Server) : Server :=
  let r := s.works fails [.marshal, w]
  if r.2 then (r.1.commitAtomicOp fails).1 else r.1

def fill (fails : ℕ → Bool) (previousTimestamp : UInt64 → UInt64) (chainID : UInt64) :
    Message → Server → Server
  | .l2Block l2Block => fillL2Block fails previousTimestamp l2Block
  | .bookMark data => fillSingle fails (.addStreamBookmark data)
  | .batchStart data =>
    fillSingle fails (.addStreamEntry (.batchStart { data with chainId := chainID }))
  | .batchEnd data => fillSingle fails (.addStreamEntry (.batchEnd data))
  | .invalid => id

/-- The switch of the loop: every case but the last starts an operation, and only its error reaches
the variable that the loop reads. -/
def send (fails : ℕ → Bool) (previousTimestamp : UInt64 → UInt64) (chainID : UInt64)
    (s : Server) (m : Message) : Server × Bool :=
  if m = .invalid then (s, false)
  else
    let r := s.startAtomicOp fails
    if r.2 then (fill fails previousTimestamp chainID m r.1, false) else (r.1, true)

/-- The variables of the loop: the server, whether `s.streamServer` is set, and
whether `err` is. -/
structure Loop where
  server : Server
  streaming : Bool
  err : Bool
  deriving DecidableEq

/-- What the loop does with the error of the iteration before. Without a server the
call panics. -/
def readError (fails : ℕ → Bool) (s : Loop) : Outcome Empty Loop :=
  if s.err then
    if s.streaming then
      let r := s.server.rollbackAtomicOp fails
      ok ⟨r.1, false, !r.2⟩
    else panic
  else ok s

def iterate (fails : ℕ → Bool) (previousTimestamp : UInt64 → UInt64) (chainID : UInt64)
    (s : Loop) (m : Message) : Outcome Empty Loop := do
  let s ← readError fails s
  if s.streaming then
    let r := send fails previousTimestamp chainID s.server m
    ok { s with server := r.1, err := r.2 }
  else ok s

/-! ## Runs -/

def messageEntries (previousTimestamp : UInt64 → UInt64) (chainID : UInt64) : Message → List Entry
  | .l2Block l2Block =>
    [.bookmark (l2BlockBookMark l2Block.l2BlockNumber), .l2Block (streamL2Block l2Block
        (if l2Block.l2BlockNumber > 0 then previousTimestamp (l2Block.l2BlockNumber - 1)
        else 0))] ++
      l2Block.txs.map fun tx => .transaction (streamL2Transaction l2Block tx)
  | .bookMark data => [.bookmark data]
  | .batchStart data => [.batchStart { data with chainId := chainID }]
  | .batchEnd data => [.batchEnd data]
  | .invalid => []

def insideCalls (previousTimestamp : UInt64 → UInt64) : Message → ℕ
  | .l2Block l2Block => (l2BlockWorks previousTimestamp l2Block).length + 2 * l2Block.txs.length + 1
  | .bookMark _ => 3
  | .batchStart _ => 3
  | .batchEnd _ => 3
  | .invalid => 0

def Quiet (fails : ℕ → Bool) (first count : ℕ) : Prop := ∀ i < count, fails (first + i) = false

/-- None of the calls that the message makes inside its operation fails. -/
def NothingFailsInside (fails : ℕ → Bool) (previousTimestamp : UInt64 → UInt64)
    (s : Loop) (m : Message) : Prop :=
  s.err = false → s.streaming = true → fails s.server.calls.length = false →
    Quiet fails (s.server.calls.length + 1) (insideCalls previousTimestamp m)

def insideFailed : Call := ⟨.inside, false⟩

/-- After a failure inside an operation it is rolled back before another one is
started. -/
def RollbackBeforeStart (calls : List Call) : Prop :=
  ∀ i j : ℕ, i < j → calls[i]? = some insideFailed → calls[j]?.map Call.kind = some .start →
      ∃ k, i < k ∧ k < j ∧ calls[k]?.map Call.kind = some .rollback

/-- The messages that were received and the state of the loop, from a stream that
holds the given entries. -/
inductive Reaches (fails : ℕ → Bool) (previousTimestamp : UInt64 → UInt64)
    (chainID : UInt64) (allowed : Loop → Message → Prop) (first : List Entry) :
    List Message → Loop → Prop where
  | init (streaming : Bool) :
      Reaches fails previousTimestamp chainID allowed first []
        ⟨⟨⟨first, none⟩, []⟩, streaming, false⟩
  | step {messages : List Message} {s s' : Loop} {m : Message}
      (h : Reaches fails previousTimestamp chainID allowed first messages s)
      (hallow : allowed s m)
      (hstep : iterate fails previousTimestamp chainID s m = ok s') :
      Reaches fails previousTimestamp chainID allowed first (messages ++ [m]) s'

variable {first : ℕ} {fs : ℕ → Bool}

lemma Quiet.left {a b : ℕ} (h : Quiet fs first (a + b)) : Quiet fs first a :=
  fun i hi => h i (Nat.lt_add_right b hi)

lemma Quiet.right {a b : ℕ} (h : Quiet fs first (a + b)) : Quiet fs (first + a) b := by
  intro i hi
  rw [add_assoc]
  exact h (a + i) (Nat.add_lt_add_left hi a)

lemma Quiet.head {n : ℕ} (h : Quiet fs first (n + 1)) : fs first = false := h 0 (succ_pos n)

def insideOk : Call := ⟨.inside, true⟩

namespace Server

variable {fs : ℕ → Bool} {pub es : List Entry} {cs : List Call}
  {effect : AtomicLog Entry → AtomicLog Entry}

lemma call_ok {s : Server} {kind : CallKind} {al : Bool} (ha : al = true) (hq : fs s.calls.length =
    false) : s.call fs kind al effect = (⟨effect s.log, s.calls ++ [⟨kind, true⟩]⟩, true) := by
  simp [call, ha, hq]

lemma call_fails {s : Server} {kind : CallKind} {al : Bool} (h : (s.call fs kind al effect).2 =
    false) : (s.call fs kind al effect).1 = ⟨s.log, s.calls ++ [⟨kind, false⟩]⟩ := by
  have ho : (al && !fs s.calls.length) = false := h
  simp [call, ho]

lemma work_ok (w : Work) (hq : fs cs.length = false) : work fs w ⟨⟨pub, some es⟩, cs⟩ =
    (⟨⟨pub, some (es ++ w.entries)⟩, cs ++ [insideOk]⟩, true) := by
  cases w with
  | marshal => simp [work, call, hq, Work.entries, insideOk]
  | unmarshal => simp [work, call, hq, Work.entries, insideOk]
  | getFirstEventAfterBookmark bm => simp [work, call, hq, Work.entries, insideOk]
  | _ => simp [work, call, hq, Work.entries, insideOk, add]

lemma works_ok (ws : List Work) (hq : Quiet fs cs.length ws.length) : works fs ws
    ⟨⟨pub, some es⟩, cs⟩ =
    (⟨⟨pub, some (es ++ ws.flatMap Work.entries)⟩, cs ++ replicate ws.length insideOk⟩, true) := by
  induction ws generalizing es cs with
  | nil => simp [works]
  | cons w ws ih =>
    rw [length_cons, add_comm] at hq
    have hr : Quiet fs (cs ++ [insideOk]).length ws.length := by
      rw [length_append]
      exact hq.right
    rw [works, work_ok w (hq.left 0 one_pos), if_pos rfl, ih hr]
    simp [replicate_succ]

end Server

section
variable {fs : ℕ → Bool} {pt : UInt64 → UInt64} {cid : UInt64}
  {pub es : List Entry} {cs : List Call}

lemma commitAtomicOp_ok (hq : fs cs.length = false) : (commitAtomicOp fs ⟨⟨pub, some es⟩, cs⟩).1 =
    ⟨commit ⟨pub, some es⟩, cs ++ [insideOk]⟩ :=
  congrArg Prod.fst (call_ok rfl hq)

lemma fillSingle_ok (w : Work) (hq : Quiet fs cs.length 3) : fillSingle fs w ⟨⟨pub, some []⟩, cs⟩ =
    ⟨commit ⟨pub, some w.entries⟩, cs ++ replicate 3 insideOk⟩ := by
  have hl : fs (cs ++ replicate 2 insideOk).length = false := by
    rw [length_append, length_replicate]
    exact hq 2 (by decide)
  rw [fillSingle, works_ok [.marshal, w] (hq.left (b := 1))]
  simp only [length_cons, length_nil, if_true]
  rw [commitAtomicOp_ok hl, append_assoc, ← replicate_succ']
  simp [Work.entries]

variable (l2Block : DSL2FullBlock)

lemma txs_ok (txs : List DSL2Transaction) (hq : Quiet fs cs.length (2 * txs.length)) :
    txs.foldl (fun s tx => (works fs (txWorks l2Block tx) s).1) ⟨⟨pub, some es⟩, cs⟩ = ⟨⟨pub,
    some (es ++ txs.map fun tx => .transaction (streamL2Transaction l2Block tx))⟩,
    cs ++ replicate (2 * txs.length) insideOk⟩ := by
  induction txs generalizing es cs with
  | nil => simp
  | cons tx txs ih =>
    rw [length_cons, mul_succ, add_comm] at hq
    have hr : Quiet fs (cs ++ replicate 2 insideOk).length (2 * txs.length) := by
      rw [length_append, length_replicate]
      exact hq.right
    rw [foldl_cons, works_ok (txWorks l2Block tx) hq.left]
    refine (ih hr).trans ?_
    rw [length_cons, mul_succ, add_comm (2 * txs.length) 2, replicate_add]
    simp [txWorks, Work.entries]

lemma flatMap_entries_l2BlockWorks :
    (l2BlockWorks pt l2Block).flatMap Work.entries =
    [.bookmark (l2BlockBookMark l2Block.l2BlockNumber), .l2Block (streamL2Block l2Block
    (if l2Block.l2BlockNumber > 0 then pt (l2Block.l2BlockNumber - 1)
    else 0))] := by
  unfold l2BlockWorks
  split_ifs <;> rfl

lemma fillL2Block_ok (hq : Quiet fs cs.length (insideCalls pt (.l2Block l2Block))) :
    fillL2Block fs pt l2Block ⟨⟨pub, some []⟩, cs⟩ =
    ⟨commit ⟨pub, some (messageEntries pt cid (.l2Block l2Block))⟩,
    cs ++ replicate (insideCalls pt (.l2Block l2Block)) insideOk⟩ := by
  have hw := hq.left.left
  have ht : Quiet fs (cs ++ replicate
      (l2BlockWorks pt l2Block).length insideOk).length (2 * l2Block.txs.length) := by
    rw [length_append, length_replicate]
    exact hq.left.right
  have hl : fs ((cs ++ replicate (l2BlockWorks pt l2Block).length insideOk) ++
      replicate (2 * l2Block.txs.length) insideOk).length = false := by
    rw [length_append, length_append, length_replicate, length_replicate, add_assoc]
    exact hq.right.head
  rw [fillL2Block, works_ok _ hw]
  simp only [if_true]
  rw [txs_ok l2Block l2Block.txs ht, commitAtomicOp_ok hl, nil_append, flatMap_entries_l2BlockWorks]
  rw [insideCalls, replicate_succ', replicate_add]
  simp only [messageEntries, append_assoc]

lemma fill_ok {m : Message} (hm : m ≠ .invalid) (hq : Quiet fs cs.length (insideCalls pt m)) :
    fill fs pt cid m ⟨⟨pub, some []⟩, cs⟩ = ⟨commit ⟨pub, some (messageEntries pt cid m)⟩,
    cs ++ replicate (insideCalls pt m) insideOk⟩ := by
  cases m with
  | l2Block l2Block => exact fillL2Block_ok l2Block hq
  | bookMark data => exact fillSingle_ok _ hq
  | batchStart data => exact fillSingle_ok _ hq
  | batchEnd data => exact fillSingle_ok _ hq
  | invalid => exact absurd rfl hm
end

/-! ## Failures inside an operation -/

/-- Calls inside the open operation were added; if none failed, there are as many as given and the
pattern has no failure there. -/
def Adds (fails : ℕ → Bool) (count : ℕ) (s s' : Server) : Prop :=
  ∃ added : List Call, s'.calls = s.calls ++ added ∧ (∀ c ∈ added, c.kind = .inside) ∧
    (insideFailed ∉ added → added.length = count ∧ Quiet fails s.calls.length count)

section
variable {fs : ℕ → Bool} {a b : ℕ} {s s' s'' : Server}

lemma Adds.trans (h : Adds fs a s s') (h' : Adds fs b s' s'') : Adds fs (a + b) s s'' := by
  obtain ⟨added, hcl, hin, hq⟩ := h
  obtain ⟨add', ha, his, ht⟩ := h'
  refine ⟨added ++ add', by rw [ha, hcl, append_assoc], ?_, ?_⟩
  · intro c hc
    exact (mem_append.mp hc).elim (hin c) (his c)
  intro hn
  rw [mem_append, not_or] at hn
  obtain ⟨hln, hf⟩ := hq hn.1
  obtain ⟨he, hs⟩ := ht hn.2
  rw [hcl, length_append, hln] at hs
  refine ⟨by rw [length_append, hln, he], fun i hi => ?_⟩
  by_cases hl : i < a
  · exact hf i hl
  · have hr := hs (i - a) (by omega)
    rwa [Nat.add_assoc, Nat.add_sub_cancel' (Nat.le_of_not_lt hl)] at hr

/-- Calls inside the open operation were added and one of them failed. -/
def FailsWithin (s s' : Server) : Prop :=
  ∃ added : List Call, s'.calls = s.calls ++ added ∧ (∀ c ∈ added, c.kind = .inside) ∧
    insideFailed ∈ added

lemma FailsWithin.adds (h : FailsWithin s s') (count : ℕ) : Adds fs count s s' := by
  obtain ⟨added, hc, hi, hf⟩ := h
  exact ⟨added, hc, hi, fun hn => absurd hf hn⟩

lemma Adds.failsWithin_trans (h : Adds fs a s s') (h' : FailsWithin s' s'') :
    FailsWithin s s'' := by
  obtain ⟨added, ha, hi, -⟩ := h
  obtain ⟨add', hl, hs, hf⟩ := h'
  refine ⟨added ++ add', by rw [hl, ha, append_assoc], ?_,
    mem_append_right _ hf⟩
  intro c hc
  exact (mem_append.mp hc).elim (hi c) (hs c)

variable {effect : AtomicLog Entry → AtomicLog Entry} {al : Bool}

lemma Server.adds_call (ha : al = true) : Adds fs 1 s (s.call fs .inside al effect).1 := by
  refine ⟨[⟨.inside, !fs s.calls.length⟩], ?_, ?_, ?_⟩
  · simp [call, ha]
  · intro c hc
    rw [mem_singleton.mp hc]
  intro hn
  refine ⟨rfl, fun i hi => ?_⟩
  obtain rfl : i = 0 := by omega
  cases hf : fs s.calls.length with
  | false => rfl
  | true => simp [hf, insideFailed] at hn

lemma Server.isSome_op_call {kind : CallKind} (ho : s.log.op.isSome)
    (he : (effect s.log).op.isSome) : (s.call fs kind al effect).1.log.op.isSome := by
  simp only [call]
  split_ifs
  · exact he
  · exact ho

lemma Server.failsWithin_call (h : (s.call fs .inside al effect).2 = false) :
    FailsWithin s (s.call fs .inside al effect).1 := by
  rw [call_fails h]
  exact ⟨[insideFailed], rfl, fun c hc => by rw [mem_singleton.mp hc]; rfl,
    mem_singleton_self _⟩

variable (fs) in
lemma Server.work_spec (w : Work) (ho : s.log.op.isSome) : (s.work fs w).1.log.op.isSome ∧ Adds fs 1
    s (s.work fs w).1 ∧ ((s.work fs w).2 = false → FailsWithin s (s.work fs w).1) := by
  have ha : ∀ e, (add e s.log).op.isSome := fun e => by
    rwa [add, Option.isSome_map]
  cases w with
  | marshal => exact ⟨isSome_op_call ho ho, adds_call rfl, failsWithin_call⟩
  | unmarshal => exact ⟨isSome_op_call ho ho, adds_call rfl, failsWithin_call⟩
  | getFirstEventAfterBookmark bm =>
    exact ⟨isSome_op_call ho ho, adds_call rfl, failsWithin_call⟩
  | addStreamBookmark bm =>
    exact ⟨isSome_op_call ho (ha _), adds_call ho, failsWithin_call⟩
  | addStreamEntry ent => exact ⟨isSome_op_call ho (ha _), adds_call ho, failsWithin_call⟩

variable (fs) in
lemma Server.works_spec (ws : List Work) (hn : s.log.op.isSome) :
    (s.works fs ws).1.log.op.isSome ∧ Adds fs ws.length s (s.works fs ws).1 ∧
    ((s.works fs ws).2 = false → FailsWithin s (s.works fs ws).1) := by
  induction ws generalizing s with
  | nil =>
    refine ⟨hn, ⟨[], by simp [works], by simp, fun _ => ⟨rfl, ?_⟩⟩, ?_⟩
    · exact fun i hi => absurd hi (not_lt_zero i)
    · exact fun h => Bool.noConfusion h
  | cons w ws ih =>
    obtain ⟨ho, hd, hl⟩ := work_spec fs w hn
    rw [works]
    split_ifs with hk
    · obtain ⟨hp, hs, hf⟩ := ih ho
      refine ⟨hp, ?_, fun h => hd.failsWithin_trans (hf h)⟩
      rw [length_cons, add_comm]
      exact hd.trans hs
    · have ha := Bool.not_eq_true _ ▸ hk
      exact ⟨ho, (hl ha).adds _, fun _ => hl ha⟩

variable (fs) in
lemma txs_spec (l2Block : DSL2FullBlock) (txs : List DSL2Transaction) (ho : s.log.op.isSome) :
    (txs.foldl (fun s tx => (s.works fs (txWorks l2Block tx)).1) s).log.op.isSome ∧ Adds fs
    (2 * txs.length) s (txs.foldl (fun s tx => (s.works fs (txWorks l2Block tx)).1) s) := by
  induction txs generalizing s with
  | nil =>
    refine ⟨ho, [], by simp, by simp, fun _ => ⟨rfl, ?_⟩⟩
    exact fun i hi => absurd hi (not_lt_zero i)
  | cons tx txs ih =>
    obtain ⟨hn, hd, -⟩ := works_spec fs (txWorks l2Block tx) ho
    obtain ⟨hp, ha⟩ := ih hn
    refine ⟨hp, ?_⟩
    rw [length_cons, mul_succ, add_comm]
    exact hd.trans ha

/-- All calls of a message are inside its operation; if none fails, the pattern has no failure
there. -/
lemma fill_spec {pt : UInt64 → UInt64} {cid : UInt64} {m : Message} (hn : s.log.op.isSome)
    (hm : m ≠ .invalid) : Adds fs (insideCalls pt m) s (fill fs pt cid m s) := by
  have hs : ∀ w, Adds fs 3 s (fillSingle fs w s) := by
    intro w
    obtain ⟨hp, ha, hf⟩ := works_spec fs [.marshal, w] hn
    unfold fillSingle
    simp only
    split_ifs with ho
    · exact ha.trans (adds_call hp)
    · exact (hf (Bool.not_eq_true _ ▸ ho)).adds _
  cases m with
  | l2Block l2Block =>
    obtain ⟨hp, ha, hf⟩ := works_spec fs (l2BlockWorks pt l2Block) hn
    unfold fill fillL2Block
    simp only
    split_ifs with ho
    · obtain ⟨he, hd⟩ := txs_spec fs l2Block l2Block.txs hp
      exact (ha.trans hd).trans (adds_call he)
    · exact (hf (Bool.not_eq_true _ ▸ ho)).adds _
  | bookMark data => exact hs _
  | batchStart data => exact hs _
  | batchEnd data => exact hs _
  | invalid => exact absurd rfl hm
end

/-! ## Atomicity -/

section
variable {fs : ℕ → Bool} {pt : UInt64 → UInt64} {cid : UInt64}
  {first : List Entry} {ms : List Message}

structure Atomic (previousTimestamp : UInt64 → UInt64) (chainID : UInt64)
    (first : List Entry) (messages : List Message) (s : Server) : Prop where
  whole : Whole (messageEntries previousTimestamp chainID) first messages s.log
  inside_ok : ∀ c ∈ s.calls, c ≠ insideFailed

section
variable {s : Server} (h : Atomic pt cid first ms s)
include h

lemma Atomic.skip (m : Message) : Atomic pt cid first (ms ++ [m]) s := ⟨h.whole.skip m, h.inside_ok⟩

lemma Atomic.call {kind : CallKind} {ok : Bool} {log : AtomicLog Entry} (hk : kind ≠ .inside)
    (hl : Whole (messageEntries pt cid) first ms log) :
    Atomic pt cid first ms ⟨log, s.calls ++ [⟨kind, ok⟩]⟩ := by
  refine ⟨hl, fun c hc he => ?_⟩
  rcases mem_append.mp hc with ho | hn
  · exact h.inside_ok c ho he
  · rw [mem_singleton.mp hn] at he
    exact hk (congrArg Call.kind he)

lemma Atomic.rollbackAtomicOp : Atomic pt cid first ms (s.rollbackAtomicOp fs).1 := by
  rcases ho : (s.rollbackAtomicOp fs).2 with _ | _
  · rw [Server.rollbackAtomicOp, Server.call_fails ho]
    exact h.call (by decide) h.whole
  have hq : fs s.calls.length = false := by
    rw [Server.rollbackAtomicOp, Server.call] at ho
    simpa using ho
  rw [Server.rollbackAtomicOp, Server.call_ok rfl hq]
  exact h.call (by decide) h.whole.rollback

lemma Atomic.send (m : Message)
    (hq : fs s.calls.length = false → Quiet fs (s.calls.length + 1) (insideCalls pt m)) : Atomic pt
    cid first (ms ++ [m]) (send fs pt cid s m).1 := by
  unfold Datastream.send
  by_cases hm : m = .invalid
  · rw [if_pos hm]
    exact h.skip m
  · rw [if_neg hm]
    obtain ⟨⟨pub, op⟩, cs⟩ := s
    obtain rfl : op = none := h.whole.1
    cases hf : fs cs.length with
    | true =>
      have hs : startAtomicOp fs ⟨⟨pub, none⟩, cs⟩ =
          (⟨⟨pub, none⟩, cs ++ [⟨.start, false⟩]⟩, false) := by
        simp [Server.startAtomicOp, Server.call, hf]
      simp only [hs, Bool.false_eq_true, if_false]
      exact (h.call (by decide) h.whole).skip m
    | false =>
      have hs : startAtomicOp fs ⟨⟨pub, none⟩, cs⟩ = (⟨⟨pub, some []⟩, cs ++ [⟨.start, true⟩]⟩,
        true) := call_ok rfl hf
      have hr : Atomic pt cid first ms
          ⟨⟨pub, none⟩, cs ++ [⟨.start, true⟩]⟩ := h.call (by decide) h.whole
      have hi : Quiet fs (cs ++ [(⟨.start, true⟩ : Call)]).length (insideCalls pt m) := by
        rw [length_append]
        exact hq hf
      simp only [hs, if_true]
      rw [fill_ok hm hi]
      refine ⟨h.whole.write m, fun c hc he => ?_⟩
      rcases mem_append.mp hc with ho | hn
      · exact hr.inside_ok c ho he
      · rw [eq_of_mem_replicate hn] at he
        cases he
end

variable {m : Message}

lemma Atomic.iterate {s s' : Loop} (h : Atomic pt cid first ms s.server)
    (hq : NothingFailsInside fs pt s m) (ht : iterate fs pt cid s m = ok s') : Atomic pt cid first
    (ms ++ [m]) s'.server := by
  obtain ⟨server, streaming, e⟩ := s
  rw [Datastream.iterate, bind_ok_iff] at ht
  obtain ⟨s₁, hr, hs⟩ := ht
  cases e with
  | true =>
    cases streaming with
    | true =>
      cases hr
      cases hs
      exact h.rollbackAtomicOp.skip m
    | false => cases hr
  | false =>
    cases hr
    cases streaming with
    | true =>
      cases hs
      exact h.send m (hq rfl rfl)
    | false =>
      cases hs
      exact h.skip m

variable (fs pt cid) in
lemma send_calls (s : Server) (hm : m ≠ .invalid) : ∃ started rest, (send fs pt cid s m).1.calls =
    s.calls ++ ⟨.start, started⟩ :: rest := by
  rw [send, if_neg hm]
  rcases ho : (s.startAtomicOp fs).2 with _ | _
  · refine ⟨false, [], ?_⟩
    simp only [ho, Bool.false_eq_true, if_false]
    rw [startAtomicOp, call_fails ho]
  have hp : (s.startAtomicOp fs).1 = ⟨s.log.start, s.calls ++ [⟨.start, true⟩]⟩ := by
    have he : (s.log.op.isNone && !fs s.calls.length) = true := ho
    simp [startAtomicOp, call, he]
  obtain ⟨added, hc, -⟩ := @fill_spec fs _ pt cid m
    (show (s.startAtomicOp fs).1.log.op.isSome by rw [hp]; rfl) hm
  refine ⟨true, added, ?_⟩
  simp only [ho, if_true]
  rw [hc, hp, append_assoc]
  rfl

/-- A failure inside an operation, followed by calls inside it and a start, has no rollback before
the start. -/
lemma not_rollback {bef added rest : List Call} {started : Bool}
    (hi : ∀ c ∈ added, c.kind = .inside) (hf : insideFailed ∈ added) :
    ¬RollbackBeforeStart (bef ++ added ++ ⟨.start, started⟩ :: rest) := by
  intro h
  obtain ⟨n, hn⟩ := mem_iff_getElem?.mp hf
  have hl : n < added.length := (List.getElem?_eq_some_iff.mp hn).1
  have ha : ∀ k, k < added.length →
      (bef ++ added ++ ⟨.start, started⟩ :: rest)[bef.length + k]? = added[k]? := by
    intro k hk
    rw [append_assoc, getElem?_append_right (le_add_right _ _),
      Nat.add_sub_cancel_left, getElem?_append_left hk]
  have hs : (bef ++ added ++ ⟨.start, started⟩ :: rest)[bef.length +
      added.length]? = some ⟨.start, started⟩ := by
    rw [← length_append, getElem?_append_right (le_refl _), Nat.sub_self]
    rfl
  obtain ⟨k, haf, hb, hr⟩ := h (bef.length + n)
    (bef.length + added.length) (Nat.add_lt_add_left hl _)
    ((ha n hl).trans hn) (by rw [hs]; rfl)
  have hk : k - bef.length < added.length := by omega
  have hg := ha (k - bef.length) hk
  rw [Nat.add_sub_cancel' (by omega : bef.length ≤ k), getElem?_eq_getElem hk] at hg
  rw [hg, Option.map_some, hi _ (getElem_mem hk)] at hr
  cases hr

/-- After a failure inside its operation, the next message starts another operation without a
rollback. -/
lemma nothingFails_of_rollback {s s₁ s₂ : Loop} {m' : Message} (ho : s.server.log.op = none)
    (hm : m ≠ .invalid) (hm' : m' ≠ .invalid) (hfs : iterate fs pt cid s m = ok s₁)
    (hn : iterate fs pt cid s₁ m' = ok s₂) (h : RollbackBeforeStart s₂.server.calls) :
    NothingFailsInside fs pt s m := by
  obtain ⟨⟨⟨pub, op⟩, cs⟩, streaming, e⟩ := s
  rintro rfl rfl hq
  obtain rfl : op = none := ho
  have hs : startAtomicOp fs ⟨⟨pub, none⟩, cs⟩ = (⟨⟨pub, some []⟩, cs ++ [⟨.start, true⟩]⟩, true) :=
    call_ok rfl hq
  have hse : send fs pt cid ⟨⟨pub, none⟩, cs⟩ m =
      (fill fs pt cid m ⟨⟨pub, some []⟩, cs ++ [⟨.start, true⟩]⟩, false) := by
    rw [send, if_neg hm]
    simp only [hs, if_true]
  obtain ⟨added, hl, hin, hc⟩ := @fill_spec fs
    ⟨⟨pub, some []⟩, cs ++ [⟨.start, true⟩]⟩ pt cid m rfl hm
  by_contra hnot
  have hf : insideFailed ∈ added := by
    by_contra hnone
    refine hnot ?_
    have he := (hc hnone).2
    rwa [length_append] at he
  have hs₁ : s₁ = ⟨fill fs pt cid m ⟨⟨pub, some []⟩, cs ++ [⟨.start, true⟩]⟩, true, false⟩ := by
    have hi := (Outcome.ok.inj hfs).symm
    simp only [hse] at hi
    exact hi
  subst hs₁
  obtain ⟨started, rest, hr⟩ := send_calls fs pt cid
    (fill fs pt cid m ⟨⟨pub, some []⟩, cs ++ [⟨.start, true⟩]⟩) hm'
  have hs₂ : s₂.server.calls = _ :=
    (congrArg (fun s : Loop => s.server.calls) (Outcome.ok.inj hn)).symm.trans hr
  rw [hs₂, hl] at h
  exact not_rollback hin hf h

/-- While nothing fails inside an operation, the stream holds the whole messages and
failed operations are rolled back. Once something does, the next message starts
another operation without a rollback. -/
theorem stream_atomic_of_nothingFailsInside {s : Loop} (h : Reaches fails previousTimestamp chainID
    (NothingFailsInside fails previousTimestamp) first messages s) :
    (∃ written : List Message, written.Sublist messages ∧ s.server.log.published =
    first ++ written.flatMap (messageEntries previousTimestamp chainID)) ∧
    RollbackBeforeStart s.server.calls ∧
    ∀ m m' s₁ s₂, m ≠ .invalid → m' ≠ .invalid →
    iterate fails previousTimestamp chainID s m = ok s₁ →
    iterate fails previousTimestamp chainID s₁ m' = ok s₂ →
    RollbackBeforeStart s₂.server.calls → NothingFailsInside fails previousTimestamp s m := by
  have hat : Atomic previousTimestamp chainID first messages s.server := by
    induction h with
    | init streaming =>
      exact ⟨⟨rfl, [], Sublist.refl _, by simp⟩, fun c hc => absurd hc not_mem_nil⟩
    | step h hal hst ih => exact ih.iterate hal hst
  refine ⟨hat.whole.2, fun i j _ hfl _ => ?_, ?_⟩
  · exact absurd rfl (hat.inside_ok insideFailed (mem_of_getElem? hfl))
  · intro m m' s₁ s₂ hm hm' hfs hsn
    exact nothingFails_of_rollback hat.whole.1 hm hm' hfs hsn

def streamedBlock : DSL2FullBlock where
  batchNumber := 1
  l2BlockNumber := 0
  timestamp := 10
  minTimestamp := 0
  l1InfoTreeIndex := 0
  l1BlockHash := plainHash 0
  globalExitRoot := plainHash 0
  coinbase := EthdaNode.State.cropAddress []
  forkID := 9
  blockHash := plainHash 1
  stateRoot := plainHash 2
  txs := [⟨0, plainHash 0, 255, 1, [1, 2, 3]⟩]

def streamedMessages : List Message := [.l2Block streamedBlock, .bookMark ⟨.batch, 2⟩]

/-- The call that fails is the one that adds the entry of the transaction. -/
def txEntryFails (n : ℕ) : Bool := n == 6

/-- The stream has the block without its transaction, and the next operation starts without a
rollback. -/
theorem txEntryFails_not_atomic :
    ∃ s, Reaches txEntryFails (fun _ => 0) 1 (fun _ _ => True) [] streamedMessages s ∧
    ¬(∃ written : List Message, written.Sublist streamedMessages ∧
    s.server.log.published = [] ++ written.flatMap (messageEntries (fun _ => 0) 1)) ∧
    ¬RollbackBeforeStart s.server.calls := by
  refine ⟨_, ((Reaches.init true).step trivial rfl).step trivial rfl, ?_, ?_⟩
  · rintro ⟨written, hs, hp⟩
    have hn : ∀ w ∈ streamedMessages.sublists,
        [Entry.bookmark (l2BlockBookMark 0), .l2Block (streamL2Block streamedBlock 0),
        .bookmark ⟨.batch, 2⟩] ≠ [] ++ w.flatMap (messageEntries (fun _ => 0) 1) := by
      decide
    exact hn written (mem_sublists.mpr hs) hp
  · intro h
    obtain ⟨k, haf, hb, hr⟩ := h 6 8 (by decide) rfl rfl
    obtain rfl : k = 7 := by omega
    cases hr

theorem stream_atomic_of_nothingFailsInside_streamed : ∃ s, Reaches (fun _ => false) (fun _ => 0) 1
    (NothingFailsInside (fun _ => false) (fun _ => 0)) [] streamedMessages s ∧
    RollbackBeforeStart s.server.calls := by
  obtain ⟨s, hr⟩ : ∃ s, Reaches (fun _ => false) (fun _ => 0) 1
      (NothingFailsInside (fun _ => false) (fun _ => 0)) [] streamedMessages s :=
    ⟨_, ((Reaches.init true).step (fun _ _ _ _ _ => rfl) rfl).step (fun _ _ _ _ _ => rfl) rfl⟩
  exact ⟨s, hr, (stream_atomic_of_nothingFailsInside hr).2.1⟩
end

end Datastream

end EthdaNode.Sequencer
