import EthdaNode.State.BatchV2

/-!
# The zkblob sender

The loop of `ZkblobSender` that posts the sequences of the state to L1 and records
them in the blob database. The blob database, the state and the monitored
transactions survive a restart of the process; the queue and the sequence that was
sent last do not.
-/

namespace EthdaNode.Blob.ZkblobSender

open State List
open Go Go.Outcome

/-! ## Sequences and their queue -/

/-- `BlobSequence`, and a row of the tables `blobs` and `state.sequences`. -/
structure BlobSequence where
  fromBatchNum : ℕ
  toBatchNum : ℕ
  deriving DecidableEq

abbrev BlobsTable : Type := List BlobSequence

variable (blobs : BlobsTable)

def getLatestZkBlob : BlobSequence :=
  blobs.foldl (fun latest row =>
    if latest.fromBatchNum < row.fromBatchNum then row else latest) ⟨0, 0⟩

def hasFrom (fromBatchNum : ℕ) : Bool := blobs.any fun row => row.fromBatchNum == fromBatchNum

/-- `AddZkBlob`: the column `from_batch_num` is unique. -/
def addZkBlob (row : BlobSequence) : Option BlobsTable :=
  if hasFrom blobs row.fromBatchNum then none else some (blobs ++ [row])

variable (sequences : List BlobSequence)

def getSequences (fromBatchNum : ℕ) : List BlobSequence :=
  sequences.filter fun seq => fromBatchNum ≤ seq.fromBatchNum

def enqueue (lastSequenceInitialBatch : ℕ) (seqQueue : List BlobSequence)
    (seq : BlobSequence) : List BlobSequence :=
  match seqQueue.getLast? with
  | none => seqQueue ++ [seq]
  | some prevLastOne =>
    if seq.fromBatchNum > prevLastOne.toBatchNum ∧
        seqQueue.any (fun s => s.fromBatchNum == seq.fromBatchNum) = false ∧
        seq.fromBatchNum ≠ lastSequenceInitialBatch then
      seqQueue ++ [seq]
    else seqQueue

def initialSequenceFromBatchNumber : ℕ := 1

def getSequenceBlobsToSend (sequences : List BlobSequence) (lastSequenceInitialBatch : ℕ)
    (seqQueue : List BlobSequence) : List BlobSequence :=
  let latest := getLatestZkBlob blobs
  let lastFromNumber :=
    if latest.fromBatchNum > 0 then latest.fromBatchNum else initialSequenceFromBatchNumber
  ((getSequences sequences lastFromNumber).drop 1).foldl (enqueue lastSequenceInitialBatch) seqQueue

/-- What `sendZkblob` returns: an error, `ErrNoZkBlobsToSend`, or the numbers under which the post
transaction is monitored. -/
inductive SendResult where
  | error
  | noZkBlobsToSend
  | added (id : ℕ × ℕ)
  deriving DecidableEq

variable (geth : GoEthereum)

/-- Whether a batch has transactions. One that does not decode is passed over. -/
def batchHasTxs (batchL2Data : GoBytes) : Outcome Empty Bool :=
  match decodeBatchV2 geth batchL2Data with
  | .ok brb => ok (brb.blocks.any fun btx => !btx.transactions.isEmpty)
  | .err _ => ok false
  | .panic => panic
  | .hang => hang

def batchNums (batches : List (ℕ × GoBytes)) : Outcome Empty (List ℕ) :=
  batches.foldlM (fun nums batch => do
    let hasTxs ← batchHasTxs geth batch.2
    ok (if hasTxs then nums ++ [batch.1] else nums)) []

def readBatches (getBatchByNumber : ℕ → Option GoBytes) (seq : BlobSequence) :
    Option (List (ℕ × GoBytes)) :=
  (List.range' seq.fromBatchNum (seq.toBatchNum + 1 - seq.fromBatchNum)).mapM fun i =>
    (getBatchByNumber i).map fun data => (i, data)

structure Calls where
  queriesFail : Bool
  zkBlobDeployed : Bool
  addFails : Bool
  deriving DecidableEq

/-- `sendZkblob` and `HandleSequenceToZkBlob`, given the transactions that are already
monitored. -/
def sendZkblob (getBatchByNumber : ℕ → Option GoBytes) (calls : Calls) (ids : List (ℕ × ℕ))
    (seq : BlobSequence) : Outcome Empty SendResult :=
  match readBatches getBatchByNumber seq with
  | none => ok .error
  | some batches =>
    if calls.zkBlobDeployed = false then ok .error
    else do
      let nums ← batchNums geth batches
      match nums with
      | [] => ok .noZkBlobsToSend
      | first :: rest =>
        let id := (first, rest.getLastD first)
        ok (if calls.addFails ∨ id ∈ ids then .error else .added id)

/-! ## The loop -/

/-- The status of a monitored transaction, as far as the loop tells them apart. -/
inductive MonitoredTxStatus where
  | pending
  | failed
  | confirmed
  | done
  deriving DecidableEq

structure MonitoredTx where
  id : ℕ × ℕ
  sequence : BlobSequence
  status : MonitoredTxStatus
  deriving DecidableEq

/-- What is lost at a restart: the queue, the last sequence sent, whether to retry, and whether a
confirmed transaction is being handled. -/
structure Memory where
  seqQueue : List BlobSequence
  lastSequence : BlobSequence
  retry : Bool
  handling : Bool
  deriving DecidableEq

def Memory.fresh : Memory := ⟨[], ⟨0, 0⟩, false, false⟩

structure World where
  sequences : List BlobSequence
  blobs : BlobsTable
  monitored : List MonitoredTx
  memory : Memory
  deriving DecidableEq

def sendCurrent (getBatchByNumber : ℕ → Option GoBytes) (calls : Calls) (w : World)
    (currentSeq : BlobSequence) : Outcome Empty World :=
  if hasFrom w.blobs currentSeq.fromBatchNum then
    ok { w with memory := { w.memory with seqQueue := w.memory.seqQueue.tail } }
  else do
    let result ← sendZkblob geth getBatchByNumber calls (w.monitored.map MonitoredTx.id) currentSeq
    let sent := { w with memory := { w.memory with lastSequence := currentSeq } }
    match result with
    | .error => ok sent
    | .noZkBlobsToSend =>
      match addZkBlob w.blobs currentSeq with
      | none => panic
      | some blobs =>
        ok { sent with
          blobs := blobs
          memory := { sent.memory with seqQueue := sent.memory.seqQueue.tail } }
    | .added id => ok { sent with monitored := w.monitored ++ [⟨id, currentSeq, .pending⟩] }

def sendNext (getBatchByNumber : ℕ → Option GoBytes) (calls : Calls) (w : World) :
    Outcome Empty World :=
  let seqQueue :=
    if calls.queriesFail then w.memory.seqQueue
    else getSequenceBlobsToSend w.blobs w.sequences w.memory.lastSequence.fromBatchNum
      w.memory.seqQueue
  let w := { w with memory := { w.memory with seqQueue := seqQueue } }
  match seqQueue with
  | [] => ok w
  | currentSeq :: _ => sendCurrent geth getBatchByNumber calls w currentSeq

/-- The handler of a confirmed transaction, after its status was set to done. -/
def handleConfirmed (hasFromFails : Bool) (w : World) : Outcome Empty World :=
  let handled := { w.memory with handling := false, retry := w.memory.retry || hasFromFails }
  if !hasFromFails && hasFrom w.blobs w.memory.lastSequence.fromBatchNum then
    ok { w with memory := handled }
  else
    match addZkBlob w.blobs w.memory.lastSequence with
    | none => panic
    | some blobs =>
      ok { w with
        blobs := blobs
        memory := { handled with seqQueue := handled.seqQueue.tail } }

/-- The monitored transactions after one status was changed. One that is done is not looked at
again. -/
def setStatus (id : ℕ × ℕ) (status : MonitoredTxStatus) (monitored : List MonitoredTx) :
    List MonitoredTx :=
  monitored.map fun tx =>
    if tx.id = id ∧ tx.status ≠ .done then { tx with status := status } else tx

/-- The sequences of the state: they do not overlap and come in order. -/
def Ordered : Prop :=
  sequences.Pairwise (fun s t => s.toBatchNum < t.fromBatchNum) ∧
    ∀ s ∈ sequences, 0 < s.fromBatchNum ∧ s.fromBatchNum ≤ s.toBatchNum

/-- No post transaction is outstanding, and none is being handled. -/
def Settled (w : World) : Prop := w.memory.handling = false ∧ ∀ tx ∈ w.monitored, tx.status = .done

section
variable (geth : GoEthereum) (getBatchByNumber get : ℕ → Option GoBytes)

/-- The steps of the loop and around it. The process may end wherever `restarts` allows it, also by
`log.Fatalf`. -/
inductive Step (restarts : World → Prop) : World → World → Prop where
  | sequenced {w : World} (seq : BlobSequence) (hord : Ordered (w.sequences ++ [seq])) :
      Step restarts w { w with sequences := w.sequences ++ [seq] }
  | resulted {w : World} (id : ℕ × ℕ) {status : MonitoredTxStatus} (hstat : status ≠ .done) :
      Step restarts w { w with monitored := setStatus id status w.monitored }
  | confirmed {w : World} {tx : MonitoredTx} (hhand : w.memory.handling = false)
      (htx : tx ∈ w.monitored) (hconf : tx.status = .confirmed) :
      Step restarts w { w with
        monitored := setStatus tx.id .done w.monitored
        memory := { w.memory with handling := true } }
  | handled {w w' : World} (hasFromFails : Bool) (hhand : w.memory.handling = true)
      (h : handleConfirmed hasFromFails w = ok w') : Step restarts w w'
  | failed {w : World} {tx : MonitoredTx} (hhand : w.memory.handling = false)
      (htx : tx ∈ w.monitored) (hfail : tx.status = .failed) :
      Step restarts w { w with memory := { w.memory with retry := true } }
  | retried {w : World} (hsett : Settled w) (hretry : w.memory.retry = true) :
      Step restarts w { w with memory := { w.memory with retry := false } }
  | sent {w w' : World} (calls : Calls) (hsett : Settled w) (hretry : w.memory.retry = false)
      (h : sendNext geth getBatchByNumber calls w = ok w') : Step restarts w w'
  | restarted {w : World} (hrestarts : restarts w) :
      Step restarts w { w with memory := .fresh }

inductive Reaches (restarts : World → Prop) : World → Prop where
  | init {sequences : List BlobSequence} (hord : Ordered sequences) :
      Reaches restarts ⟨sequences, [], [], .fresh⟩
  | step {w w' : World} (h : Reaches restarts w)
      (hstep : Step geth getBatchByNumber restarts w w') : Reaches restarts w'

def NoTxs (seq : BlobSequence) : Prop :=
  ∃ batches, readBatches getBatchByNumber seq = some batches ∧ batchNums geth batches = ok []

def Posted (w : World) (seq : BlobSequence) : Prop :=
  ∃ tx ∈ w.monitored, tx.sequence = seq ∧ tx.status = .done

/-- The recorded sequences follow the initial one in order and without a gap, and each was posted or
has nothing to post. -/
def Bookkeeping (w : World) : Prop :=
  w.blobs <+: w.sequences.tail ∧ ∀ row ∈ w.blobs, Posted w row ∨ NoTxs geth getBatchByNumber row
end

variable {ys xs : List BlobSequence}

lemma Ordered.sublist (h : Ordered ys) (hb : xs.Sublist ys) : Ordered xs :=
  ⟨h.1.sublist hb, fun s hs => h.2 s (hb.subset hs)⟩

lemma Ordered.from_lt (h : Ordered (xs ++ ys)) {s t : BlobSequence} (hs : s ∈ xs) (ht : t ∈ ys) :
    s.fromBatchNum < t.fromBatchNum :=
  lt_of_le_of_lt (h.2 s (mem_append_left _ hs)).2 ((pairwise_append.mp h.1).2.2 s hs t ht)

lemma hasFrom_eq_false (h : Ordered (xs ++ ys)) {t : BlobSequence} (ht : t ∈ ys) :
    hasFrom xs t.fromBatchNum = false := by
  rw [hasFrom, any_eq_false]
  intro s hs
  simpa using (h.from_lt hs ht).ne

variable {row : BlobSequence}

lemma getLatestZkBlob_append {rows : List BlobSequence} (h : Ordered (rows ++ [row])) :
    getLatestZkBlob (rows ++ [row]) = row := by
  have hb : ∀ (xs : List BlobSequence) (latest : BlobSequence),
      latest.fromBatchNum < row.fromBatchNum → (∀ s ∈ xs, s.fromBatchNum < row.fromBatchNum) →
      (xs.foldl (fun latest row =>
      if latest.fromBatchNum < row.fromBatchNum then row else latest)
      latest).fromBatchNum < row.fromBatchNum := by
    intro xs
    induction xs with
    | nil => exact fun latest hl _ => hl
    | cons x xs ih =>
      intro latest hl hx
      rw [foldl_cons]
      refine ih _ ?_ fun s hs => hx s (mem_cons_of_mem _ hs)
      split_ifs
      · exact hx x mem_cons_self
      · exact hl
  have hp := (h.2 row (mem_append_right _ (mem_singleton_self _))).1
  have ht := hb rows ⟨0, 0⟩ hp fun s hs =>
    h.from_lt hs (mem_singleton_self _)
  rw [getLatestZkBlob, foldl_append, foldl_cons, foldl_nil, if_pos ht]

/-- `GetSequences` returns the last recorded sequence and all that follow. -/
lemma getSeqs_eq {before after : List BlobSequence} (h : Ordered (before ++ row :: after)) :
    getSequences (before ++ row :: after) row.fromBatchNum = row :: after := by
  have ha : Ordered ([row] ++ after) := h.sublist (sublist_append_right _ _)
  rw [getSequences, filter_append, filter_eq_nil_iff.mpr, nil_append, filter_eq_self]
  · intro s hs
    rcases mem_cons.mp hs with rfl | hmem
    · simp
    · simpa using (ha.from_lt (mem_singleton_self _) hmem).le
  · intro s hs
    simpa using h.from_lt hs mem_cons_self

variable {q : List BlobSequence} {last : ℕ}

lemma foldl_enqueue_queued {back : BlobSequence} (hb : q.getLast? = some back)
    (hx : ∀ s ∈ xs, s.fromBatchNum ≤ back.toBatchNum) : xs.foldl (enqueue last) q = q := by
  induction xs with
  | nil => rfl
  | cons x xs ih =>
    have hn : ¬x.fromBatchNum > back.toBatchNum := Nat.not_lt.mpr (hx x mem_cons_self)
    have hm : enqueue last q x = q := by simp [enqueue, hb, hn]
    rw [foldl_cons, hm]
    exact ih fun s hs => hx s (mem_cons_of_mem _ hs)

lemma foldl_enqueue_after (ho : Ordered (q ++ xs))
    (hl : ∀ s ∈ (q ++ xs).tail, s.fromBatchNum ≠ last) : xs.foldl (enqueue last) q = q ++ xs := by
  induction xs generalizing q with
  | nil => simp
  | cons x xs ih =>
    have ha : enqueue last q x = q ++ [x] := by
      rcases eq_nil_or_concat' q with rfl | ⟨init, back, rfl⟩
      · rfl
      have hb : (init ++ [back]).getLast? = some back := getLast?_concat
      have ht : x.fromBatchNum > back.toBatchNum := (pairwise_append.mp ho.1).2.2 back
        (mem_append_right _ (mem_singleton_self _)) x mem_cons_self
      have hh : (init ++ [back]).any (fun s => s.fromBatchNum == x.fromBatchNum) =
          false := hasFrom_eq_false ho mem_cons_self
      have hn : x.fromBatchNum ≠ last := by
        refine hl x ?_
        rw [tail_append_of_ne_nil (by simp)]
        exact mem_append_cons_self
      rw [enqueue, hb]
      exact if_pos ⟨ht, hh, hn⟩
    rw [foldl_cons, ha, ih]
    · rw [append_assoc, singleton_append]
    · rwa [append_assoc, singleton_append]
    · rwa [append_assoc, singleton_append]

lemma seqBlobs_eq {seqs blobs todo : List BlobSequence} (ho : Ordered seqs) (htl : seqs.tail =
    blobs ++ todo) (hq : q <+: todo) (hl : ∀ s ∈ todo.tail, s.fromBatchNum ≠ last) :
    getSequenceBlobsToSend blobs seqs last q = todo := by
  have hf : (getSequences seqs (if (getLatestZkBlob blobs).fromBatchNum > 0 then (getLatestZkBlob
      blobs).fromBatchNum else initialSequenceFromBatchNumber)).drop 1 = todo := by
    rcases seqs with _ | ⟨first, rest⟩
    · obtain ⟨-, rfl⟩ := append_eq_nil_iff.mp htl.symm
      rfl
    obtain rfl : rest = blobs ++ todo := htl
    rcases eq_nil_or_concat' blobs with rfl | ⟨rows, row, rfl⟩
    · have ha : getSequences (first :: todo) initialSequenceFromBatchNumber = first :: todo := by
        rw [getSequences, filter_eq_self]
        intro s hs
        exact decide_eq_true (ho.2 s hs).1
      rw [if_neg (by decide)]
      exact congrArg (List.drop 1) ha
    have hsp : first :: (rows ++ [row] ++ todo) = (first :: rows) ++ row :: todo := by simp
    rw [hsp] at ho ⊢
    have hr : Ordered (rows ++ [row]) := ho.sublist
      ((sublist_cons_self _ _).append (singleton_sublist.mpr mem_cons_self))
    have hp : 0 < row.fromBatchNum := (ho.2 row (by simp)).1
    rw [getLatestZkBlob_append hr, if_pos hp, getSeqs_eq ho]
    rfl
  rw [getSequenceBlobsToSend, hf]
  have ht : Ordered todo := ho.sublist
    ((sublist_append_right blobs todo).trans (htl ▸ tail_sublist _))
  obtain ⟨rest, rfl⟩ := hq
  rw [foldl_append]
  rcases eq_nil_or_concat' q with rfl | ⟨init, back, rfl⟩
  · exact foldl_enqueue_after ht hl
  rw [foldl_enqueue_queued getLast?_concat]
  · exact foldl_enqueue_after ht hl
  intro s hs
  rcases mem_append.mp hs with hi | hback
  · have hq := ht.sublist (sublist_append_left (init ++ [back]) rest)
    exact le_trans (hq.from_lt hi (mem_singleton_self _)).le (ht.2 back (by simp)).2
  · rw [mem_singleton.mp hback]
    exact (ht.2 back (by simp)).2

/-! ## The bookkeeping -/

section
variable {geth : GoEthereum} {getBatchByNumber get : ℕ → Option GoBytes}

/-- The transactions are done and their sequences are recorded. -/
def Finished (blobs : BlobsTable) (monitored : List MonitoredTx) : Prop :=
  ∀ tx ∈ monitored, tx.status = .done ∧ tx.sequence ∈ blobs

/-- No transaction is outstanding; the last one, which posts the last sequence sent, is; or it was
confirmed and is being handled. -/
inductive Phase (w : World) : Prop where
  | settled (hhand : w.memory.handling = false) (hfin : Finished w.blobs w.monitored)
  | waiting {before : List MonitoredTx} {tx : MonitoredTx}
      (hhand : w.memory.handling = false) (hmon : w.monitored = before ++ [tx])
      (hfin : Finished w.blobs before) (hstat : tx.status ≠ .done)
      (hseq : tx.sequence = w.memory.lastSequence)
      (hcur : w.memory.seqQueue.head? = some w.memory.lastSequence)
  | handling {before : List MonitoredTx} {tx : MonitoredTx}
      (hhand : w.memory.handling = true) (hmon : w.monitored = before ++ [tx])
      (hfin : Finished w.blobs before) (hdone : tx.status = .done)
      (hseq : tx.sequence = w.memory.lastSequence)
      (hcur : w.memory.seqQueue.head? = some w.memory.lastSequence)

/-- The sequences after the initial one are the recorded ones and those to do, of which the first
are in the queue. -/
def Split (w : World) (todo : List BlobSequence) : Prop :=
  w.sequences.tail = w.blobs ++ todo ∧ w.memory.seqQueue <+: todo ∧
    (w.memory.lastSequence.fromBatchNum = 0 ∨ w.memory.lastSequence ∈ w.blobs ∨
      todo.head? = some w.memory.lastSequence)

/-- What holds while the process restarts only if it is settled. -/
structure Good (geth : GoEthereum) (getBatchByNumber : ℕ → Option GoBytes) (w : World) :
    Prop where
  ordered : Ordered w.sequences
  split : ∃ todo, Split w todo
  posted : ∀ row ∈ w.blobs, Posted w row ∨ NoTxs geth getBatchByNumber row
  numbered : ∀ tx ∈ w.monitored, tx.id.1 ≤ tx.sequence.toBatchNum
  phase : Phase w

variable {w' : World} {w : World}

lemma Phase.congr (h : Phase w) (hb : w'.blobs = w.blobs) (hm : w'.monitored = w.monitored)
    (hq : w'.memory.seqQueue = w.memory.seqQueue) (hl : w'.memory.lastSequence =
    w.memory.lastSequence) (hsm : w'.memory.handling = w.memory.handling) : Phase w' := by
  obtain ⟨sequences, blobs, monitored, q, last, retry, handling⟩ := w
  obtain ⟨sqs', blb', mnt', q', last', rtr', ha⟩ := w'
  dsimp only at hb hm hq hl hsm
  subst hb hm hq hl hsm
  cases h with
  | settled hh hf => exact .settled hh hf
  | waiting hh hm hf ht hs hc =>
    exact .waiting hh hm hf ht hs hc
  | handling hh hm hf hd hs hc =>
    exact .handling hh hm hf hd hs hc

lemma Phase.finished (h : Phase w) (hs : Settled w) : Finished w.blobs w.monitored := by
  cases h with
  | settled _ hf => exact hf
  | @waiting bef tx _ hm _ ht _ _ =>
    exact absurd (hs.2 tx (by simp [hm])) ht
  | handling hh _ _ _ _ _ =>
    rw [hs.1] at hh
    cases hh

variable {status : MonitoredTxStatus} {monitored : List MonitoredTx}

variable {id : ℕ × ℕ}

lemma setStatus_of_done (h : ∀ tx ∈ monitored, tx.status = .done) :
    setStatus id status monitored = monitored := by
  refine (map_congr_left fun tx ht => ?_).trans (map_id _)
  simp [h tx ht]

lemma setStatus_append {before : List MonitoredTx} (tx : MonitoredTx)
    (h : ∀ t ∈ before, t.status = .done) :
    setStatus id status (before ++ [tx]) = before ++
    [if tx.id = id ∧ tx.status ≠ .done then { tx with status := status } else tx] := by
  have hb : setStatus id status before = before := setStatus_of_done h
  rw [setStatus] at hb ⊢
  rw [map_append, hb, map_singleton]

lemma mem_setStatus {tx : MonitoredTx} (ht : tx ∈ monitored)
    (hd : tx.status = .done) : tx ∈ setStatus id status monitored :=
  mem_map.mpr ⟨tx, ht, by simp [hd]⟩

lemma numbered_setStatus (h : ∀ tx ∈ monitored, tx.id.1 ≤ tx.sequence.toBatchNum) :
    ∀ tx ∈ setStatus id status monitored, tx.id.1 ≤ tx.sequence.toBatchNum := by
  intro tx hx
  obtain ⟨t, ht, rfl⟩ := mem_map.mp hx
  split_ifs
  · exact h t ht
  · exact h t ht

variable {seq : BlobSequence}

lemma Posted.congr (h : Posted w seq)
    (hm : ∀ tx ∈ w.monitored, tx.status = .done → tx ∈ w'.monitored) : Posted w' seq := by
  obtain ⟨tx, ht, hs, hd⟩ := h
  exact ⟨tx, hm tx ht hd, hs, hd⟩

/-! ### Steps -/

section
variable {w : World} (h : Good geth get w)
include h

lemma Good.sequenced (ho : Ordered (w.sequences ++ [seq])) :
    Good geth get { w with sequences := w.sequences ++ [seq] } := by
  obtain ⟨todo, ht, hq, hl⟩ := h.split
  refine ⟨ho, ?_, h.posted, h.numbered, h.phase.congr rfl rfl rfl rfl rfl⟩
  rcases hs : w.sequences with _ | ⟨first, rest⟩
  · rw [hs] at ht
    obtain ⟨hb, rfl⟩ := append_eq_nil_iff.mp ht.symm
    exact ⟨[], by simp [hb], hq, hl⟩
  rw [hs] at ht
  obtain rfl : rest = w.blobs ++ todo := ht
  refine ⟨todo ++ [seq], ?_, hq.trans (prefix_append _ _), ?_⟩
  · simp
  refine hl.imp_right (Or.imp_right fun hh => ?_)
  rw [head?_append, hh]
  rfl

lemma Good.resulted (id : ℕ × ℕ) (hst : status ≠ .done) :
    Good geth get { w with monitored := setStatus id status w.monitored } := by
  refine ⟨h.ordered, h.split, fun row hr => ?_, numbered_setStatus h.numbered, ?_⟩
  · exact (h.posted row hr).imp_left fun hps =>
      hps.congr fun tx hx hd => mem_setStatus hx hd
  cases h.phase with
  | settled hh hf =>
    refine .settled hh ?_
    change Finished w.blobs (setStatus id status w.monitored)
    rwa [setStatus_of_done fun tx hx => (hf tx hx).1]
  | @waiting bef tx hh hm hf hp hs hc =>
    refine @Phase.waiting _ bef
      (if tx.id = id ∧ tx.status ≠ .done then { tx with status := status } else tx)
      hh ?_ hf ?_ ?_ hc
    · change setStatus id status w.monitored = _
      rw [hm, setStatus_append tx fun t ht => (hf t ht).1]
    · split_ifs
      · exact hst
      · exact hp
    split_ifs
    · exact hs
    · exact hs
  | @handling bef tx hh hm hf hd hs hc =>
    refine @Phase.handling _ bef tx hh ?_ hf hd hs hc
    change setStatus id status w.monitored = _
    rw [hm, setStatus_append tx fun t ht => (hf t ht).1, if_neg (by simp [hd])]

lemma Good.confirmed {tx : MonitoredTx} (hh : w.memory.handling = false) (hx : tx ∈ w.monitored)
    (hc : tx.status = .confirmed) :
    Good geth get { w with
    monitored := setStatus tx.id .done w.monitored
    memory := { w.memory with handling := true } } := by
  refine ⟨h.ordered, h.split, fun row hr => ?_, numbered_setStatus h.numbered, ?_⟩
  · exact (h.posted row hr).imp_left fun hp =>
      hp.congr fun tx hx hd => mem_setStatus hx hd
  have hn : tx.status ≠ .done := by rw [hc]; decide
  cases h.phase with
  | settled _ hf => exact absurd (hf tx hx).1 hn
  | @waiting bef last _ hm hf _ hs hcr =>
    have hl : tx = last := by
      rw [hm, mem_append, mem_singleton] at hx
      exact hx.resolve_left fun ho => hn (hf tx ho).1
    subst hl
    refine @Phase.handling _ bef { tx with status := .done } rfl ?_ hf rfl hs hcr
    change setStatus tx.id .done w.monitored = _
    rw [hm, setStatus_append tx fun t ht => (hf t ht).1, if_pos ⟨rfl, hn⟩]
  | handling htr _ _ _ _ _ =>
    rw [hh] at htr
    cases htr

lemma Good.addZkBlob_eq {rest : List BlobSequence}
    (ht : w.sequences.tail = w.blobs ++ seq :: rest) :
    hasFrom w.blobs seq.fromBatchNum = false ∧ addZkBlob w.blobs seq = some (w.blobs ++ [seq]) := by
  have ho : Ordered (w.blobs ++ seq :: rest) := ht ▸ h.ordered.sublist (tail_sublist _)
  have hn := hasFrom_eq_false ho mem_cons_self
  exact ⟨hn, by rw [addZkBlob, hn]; rfl⟩
end

lemma Finished.append {blobs : BlobsTable} (h : Finished blobs monitored) (row : BlobSequence) :
    Finished (blobs ++ [row]) monitored :=
  fun tx ht => ⟨(h tx ht).1, mem_append_left _ (h tx ht).2⟩

variable {q : List BlobSequence}

lemma Good.recorded (h : Good geth get w) (hq : w.memory.seqQueue = seq :: q) (hs : w'.sequences =
    w.sequences) (hb : w'.blobs = w.blobs ++ [seq]) (hm : w'.monitored = w.monitored)
    (hu : w'.memory.seqQueue = q) (hl : w'.memory.lastSequence = seq) (hh : w'.memory.handling =
    false) (hps : Posted w seq ∨ NoTxs geth get seq)
    (hf : Finished (w.blobs ++ [seq]) w.monitored) : Good geth get w' := by
  obtain ⟨todo, ht, hp, -⟩ := h.split
  obtain ⟨rest, rfl⟩ := hp
  rw [hq, cons_append] at ht
  refine ⟨hs ▸ h.ordered, ⟨q ++ rest, ?_, ?_, .inr (.inl ?_)⟩, ?_, ?_, ?_⟩
  · rw [hs, ht, hb, append_assoc, singleton_append]
  · rw [hu]
    exact prefix_append _ _
  · rw [hl, hb]
    exact mem_append_right _ (mem_singleton_self _)
  · intro row hr
    rw [hb, mem_append, mem_singleton] at hr
    rw [Posted, hm]
    rcases hr with ho | rfl
    · exact h.posted row ho
    · exact hps
  · rw [hm]
    exact h.numbered
  refine .settled hh ?_
  rw [hb, hm]
  exact hf

lemma Good.handled (h : Good geth get w) {hF : Bool} (hh : w.memory.handling = true)
    (hs : handleConfirmed hF w = ok w') : Good geth get w' := by
  cases h.phase with
  | settled hf _ =>
    rw [hf] at hh
    cases hh
  | waiting hf _ _ _ _ _ =>
    rw [hf] at hh
    cases hh
  | @handling bef tx _ hm hfn hd hsq hc =>
    obtain ⟨todo, hl, hp, -⟩ := h.split
    obtain ⟨q, hq⟩ : ∃ q, w.memory.seqQueue = w.memory.lastSequence :: q := head?_eq_some_iff.mp hc
    obtain ⟨rest, rfl⟩ := hp
    rw [hq, cons_append] at hl
    obtain ⟨hn, ha⟩ := h.addZkBlob_eq hl
    rw [handleConfirmed, hn, ha, Bool.and_false, if_neg (by decide)] at hs
    cases hs
    refine h.recorded hq rfl rfl rfl ?_ rfl rfl (.inl ⟨tx, ?_, hsq, hd⟩) ?_
    · change w.memory.seqQueue.tail = q
      rw [hq, tail_cons]
    · rw [hm]
      exact mem_append_right _ (mem_singleton_self _)
    intro t ht
    rw [hm, mem_append, mem_singleton] at ht
    rcases ht with ho | rfl
    · exact hfn.append _ t ho
    · exact ⟨hd, mem_append_right _ (mem_singleton.mpr hsq)⟩

variable {bs : List (ℕ × GoBytes)}

lemma mem_readBatches {numbers : List ℕ} (h : (numbers.mapM fun i => (get i).map fun data => (i,
    data)) = some bs) : ∀ batch ∈ bs, batch.1 ∈ numbers := by
  induction numbers generalizing bs with
  | nil =>
    obtain rfl : bs = [] := by simpa using h.symm
    exact fun batch hb => absurd hb not_mem_nil
  | cons i numbers ih =>
    simp only [mapM_cons, Option.bind_eq_bind, Option.bind_eq_some_iff, Option.map_eq_some_iff] at h
    obtain ⟨_, ⟨data, -, rfl⟩, rest, hr, hc⟩ := h
    obtain rfl : (i, data) :: rest = bs := Option.some.inj hc
    intro batch hb
    rcases mem_cons.mp hb with rfl | hmem
    · exact mem_cons_self
    · exact mem_cons_of_mem _ (ih hr batch hmem)

lemma mem_batchNums {nums : List ℕ} (h : batchNums geth bs = ok nums) :
    ∀ n ∈ nums, n ∈ bs.map Prod.fst := by
  have hf : ∀ (bs : List (ℕ × GoBytes)) (acc nums : List ℕ),
      (bs.foldlM (fun nums batch => do
      let ha ← batchHasTxs geth batch.2
      ok (if ha then nums ++ [batch.1] else nums)) acc : Outcome Empty (List ℕ)) = ok nums →
      ∀ n ∈ nums, n ∈ acc ∨ n ∈ bs.map Prod.fst := by
    intro bs
    induction bs with
    | nil =>
      intro acc nums hm n hn
      rw [foldlM_nil, pure_eq_ok, ok.injEq] at hm
      exact .inl (hm ▸ hn)
    | cons batch bs ih =>
      intro acc nums hm n hn
      rw [foldlM_cons] at hm
      obtain ⟨acc', hc, hr⟩ := ok_of_bind hm
      obtain ⟨ha, -, hd⟩ := ok_of_bind hc
      cases hd
      rw [map_cons, mem_cons]
      rcases ih _ _ hr n hn with ho | hw
      · split_ifs at ho
        · rw [mem_append, mem_singleton] at ho
          exact ho.imp_right .inl
        · exact .inl ho
      · exact .inr (.inr hw)
  intro n hn
  exact (hf bs [] nums h n hn).resolve_left not_mem_nil

lemma batchNums_bounds {nums : List ℕ} (hd : readBatches get seq = some bs)
    (hm : batchNums geth bs = ok nums) : ∀ n ∈ nums, seq.fromBatchNum ≤ n ∧ n ≤ seq.toBatchNum := by
  intro n hn
  obtain ⟨batch, hb, rfl⟩ := mem_map.mp (mem_batchNums hm n hn)
  have hr := mem_readBatches hd batch hb
  rw [mem_range'_1] at hr
  omega

variable {calls cl : Calls}

lemma sendZkblob_cases {ids : List (ℕ × ℕ)} {res : SendResult} (h : sendZkblob geth get cl ids seq =
    ok res) : res = .error ∨ (res = .noZkBlobsToSend ∧ NoTxs geth get seq) ∨ ∃ id, res = .added id ∧
    id.1 ≤ seq.toBatchNum := by
  rw [sendZkblob] at h
  rcases hr : readBatches get seq with _ | bs
  · rw [hr] at h
    exact .inl (Outcome.ok.inj h).symm
  rw [hr] at h
  simp only at h
  split_ifs at h
  · exact .inl (Outcome.ok.inj h).symm
  obtain ⟨nums, hn, hs⟩ := ok_of_bind h
  rcases nums with _ | ⟨first, rest⟩
  · exact .inr (.inl ⟨(Outcome.ok.inj hs).symm, bs, hr, hn⟩)
  cases hs
  have hb := batchNums_bounds hr hn first mem_cons_self
  split_ifs
  · exact .inl rfl
  · exact .inr (.inr ⟨_, rfl, hb.2⟩)

variable {todo : List BlobSequence}

lemma Good.refill (h : Good geth get w) (hs : Settled w) (hp : Split w todo) (hq : q <+: todo) :
    Good geth get { w with memory := { w.memory with seqQueue := q } } :=
  ⟨h.ordered, ⟨todo, hp.1, hq, hp.2.2⟩, h.posted, h.numbered,
    .settled hs.1 (h.phase.finished hs)⟩

lemma Good.sendCurrent (h : Good geth get w) (hs : Settled w) {seq : BlobSequence}
    (hq : w.memory.seqQueue = seq :: q) (hsp : sendCurrent geth get cl w seq = ok w') : Good geth
    get w' := by
  have hf := h.phase.finished hs
  obtain ⟨todo, ht, hp, -⟩ := h.split
  have hh : todo.head? = some seq := by
    rw [hq] at hp
    obtain ⟨rest, rfl⟩ := hp
    rfl
  obtain ⟨rest, rfl⟩ := head?_eq_some_iff.mp hh
  obtain ⟨hnn, ha⟩ := h.addZkBlob_eq ht
  rw [ZkblobSender.sendCurrent, hnn, if_neg (by decide)] at hsp
  obtain ⟨result, he, hr⟩ := ok_of_bind hsp
  rcases sendZkblob_cases he with rfl | ⟨rfl, hn⟩ | ⟨id, rfl, hi⟩
  · cases hr
    exact ⟨h.ordered, ⟨_, ht, hp, .inr (.inr rfl)⟩, h.posted, h.numbered, .settled hs.1 hf⟩
  · simp only [ha] at hr
    cases hr
    refine h.recorded hq rfl rfl rfl ?_ rfl hs.1 (.inr hn) (hf.append _)
    change w.memory.seqQueue.tail = q
    rw [hq, tail_cons]
  cases hr
  refine ⟨h.ordered, ⟨_, ht, hp, .inr (.inr rfl)⟩, fun row hw => ?_, fun tx hx => ?_, ?_⟩
  · exact (h.posted row hw).imp_left fun hps =>
      hps.congr fun tx hx _ => mem_append_left _ hx
  · rcases mem_append.mp hx with ho | hnw
    · exact h.numbered tx ho
    · rw [mem_singleton.mp hnw]
      exact hi
  · exact .waiting hs.1 rfl hf (by simp) rfl (by rw [hq]; rfl)

/-- The sequence that was sent last is not after the first of the ones to do. -/
lemma Split.last_ne (ho : Ordered w.sequences) (h : Split w todo) :
    ∀ s ∈ todo.tail, s.fromBatchNum ≠ w.memory.lastSequence.fromBatchNum := by
  intro s hs
  obtain ⟨ht, -, hl⟩ := h
  have hp : Ordered (w.blobs ++ todo) := ht ▸ ho.sublist (tail_sublist _)
  rcases hl with hz | hr | hh
  · rw [hz]
    exact (hp.2 s (mem_append_right _ (mem_of_mem_tail hs))).1.ne'
  · exact (hp.from_lt hr (mem_of_mem_tail hs)).ne'
  obtain ⟨rest, rfl⟩ := head?_eq_some_iff.mp hh
  have hd : Ordered ([w.memory.lastSequence] ++ rest) := hp.sublist (sublist_append_right _ _)
  exact (hd.from_lt (mem_singleton_self _) hs).ne'

lemma Good.sendNext (h : Good geth get w) (he : Settled w)
    (ht : sendNext geth get cl w = ok w') : Good geth get w' := by
  obtain ⟨todo, hs⟩ := h.split
  have hq : (if cl.queriesFail then w.memory.seqQueue else getSequenceBlobsToSend w.blobs
      w.sequences w.memory.lastSequence.fromBatchNum w.memory.seqQueue) <+: todo := by
    split_ifs
    · exact hs.2.1
    · rw [seqBlobs_eq h.ordered hs.1 hs.2.1 (hs.last_ne h.ordered)]
  have hg := h.refill he hs hq
  rw [ZkblobSender.sendNext] at ht
  generalize (if cl.queriesFail then w.memory.seqQueue
      else getSequenceBlobsToSend w.blobs w.sequences w.memory.lastSequence.fromBatchNum
        w.memory.seqQueue) = q at ht hg
  cases q with
  | nil =>
    cases ht
    exact hg
  | cons seq q => exact hg.sendCurrent he rfl ht

/-- Steps keep the books while the process restarts only if it is settled. -/
lemma Good.step {w w' : World} (h : Good geth get w)
    (hp : Step geth get Settled w w') : Good geth get w' := by
  cases hp with
  | sequenced seq ho => exact h.sequenced ho
  | resulted id ha => exact h.resulted id ha
  | confirmed hh ht hc => exact h.confirmed hh ht hc
  | handled hF hh hrc => exact h.handled hh hrc
  | failed hh ht hf =>
    exact ⟨h.ordered, h.split, h.posted, h.numbered, h.phase.congr rfl rfl rfl rfl rfl⟩
  | retried hs hrt =>
    exact ⟨h.ordered, h.split, h.posted, h.numbered, h.phase.congr rfl rfl rfl rfl rfl⟩
  | sent cl hs hrt hn => exact h.sendNext hs hn
  | restarted hr =>
    obtain ⟨todo, hl, -, -⟩ := h.split
    exact ⟨h.ordered, ⟨todo, hl, nil_prefix, .inl rfl⟩, h.posted, h.numbered,
      .settled rfl (h.phase.finished hr)⟩

lemma Reaches.good (h : Reaches geth get Settled w) : Good geth get w := by
  induction h with
  | @init sequences ho =>
    exact ⟨ho, ⟨sequences.tail, rfl, nil_prefix, .inl rfl⟩, fun row hr => absurd hr not_mem_nil, fun
      tx ht => absurd ht not_mem_nil, .settled rfl fun tx ht => absurd ht not_mem_nil⟩
  | step h hs ih => exact ih.step hs

/-! ### Progress -/

/-- The batches of the sequence can be read, and the decoder does not panic on
them. -/
def Sendable (geth : GoEthereum) (getBatchByNumber : ℕ → Option GoBytes)
    (seq : BlobSequence) : Prop :=
  ∃ batches nums, readBatches getBatchByNumber seq = some batches ∧ batchNums geth batches = ok nums

def Records (geth : GoEthereum) (getBatchByNumber : ℕ → Option GoBytes) (w : World)
    (rows : List BlobSequence) : Prop :=
  ∃ w', Relation.ReflTransGen (Step geth getBatchByNumber Settled) w w' ∧
    Good geth getBatchByNumber w' ∧ w'.sequences = w.sequences ∧ w'.blobs = w.blobs ++ rows

lemma Records.head {rows : List BlobSequence} (hs : Step geth get Settled w w')
    (hq : w'.sequences = w.sequences) (hb : w'.blobs = w.blobs) (h : Records geth get w' rows) :
    Records geth get w rows := by
  obtain ⟨w'', ht, hg, hm, hr⟩ := h
  exact ⟨w'', ht.head hs, hg, hm.trans hq, by rw [hr, hb]⟩

variable {w : World} {seq : BlobSequence} {rest : List BlobSequence}

lemma Split.current {last : BlobSequence} (hs : Split w (currentSeq :: rest))
    (hc : w.memory.seqQueue.head? = some last) : last = currentSeq := by
  obtain ⟨q, hq⟩ := head?_eq_some_iff.mp hc
  have hp := hs.2.1
  rw [hq, cons_prefix_cons] at hp
  exact hp.1

lemma Good.records_of_handling (h : Good geth get w) (hh : w.memory.handling = true)
    (hs : Split w (seq :: rest)) : Records geth get w [seq] := by
  rcases h.phase with ⟨hf, _⟩ | ⟨hf, _, _, _, _, _⟩ | ⟨_, _, _, _, _, hc⟩
  · rw [hf] at hh
    cases hh
  · rw [hf] at hh
    cases hh
  have hl := hs.current hc
  obtain ⟨hn, hd⟩ := h.addZkBlob_eq hs.1
  have ht : ∃ w', handleConfirmed false w = ok w' ∧ w'.sequences = w.sequences ∧
      w'.blobs = w.blobs ++ [seq] := by
    rw [handleConfirmed, hl, hn, hd]
    exact ⟨_, rfl, rfl, rfl⟩
  obtain ⟨w', ha, hq, hb⟩ := ht
  exact ⟨w', .single (.handled false hh ha), h.handled hh ha, hq, hb⟩

lemma Good.records_of_waiting (h : Good geth get w) (hu : ¬Settled w) (hs : Split w (seq :: rest)) :
    Records geth get w [seq] := by
  cases h.phase with
  | settled hf hn => exact absurd ⟨hf, fun tx hx => (hn tx hx).1⟩ hu
  | handling hr _ _ _ _ _ => exact h.records_of_handling hr hs
  | @waiting bef tx hf hmn hn hst _ _ =>
    have hp : MonitoredTxStatus.confirmed ≠ .done := by decide
    have hc := h.resulted tx.id hp
    have hm : { tx with status := .confirmed } ∈ setStatus tx.id .confirmed w.monitored := by
      rw [hmn, setStatus_append tx fun t ht => (hn t ht).1, if_pos ⟨rfl, hst⟩]
      exact mem_append_right _ (mem_singleton_self _)
    refine Records.head (.resulted tx.id hp) rfl rfl ?_
    refine Records.head (.confirmed hf hm rfl) rfl rfl ?_
    exact (hc.confirmed hf hm rfl).records_of_handling rfl hs

def Calls.fine : Calls := ⟨false, true, false⟩

section
variable (h : Good geth get w)
include h

/-- The number of a post transaction is a new one if the sequence is not recorded. -/
lemma Good.id_not_mem (hs : Settled w) (hp : Split w (seq :: rest)) {id : ℕ × ℕ}
    (hi : seq.fromBatchNum ≤ id.1) : id ∉ w.monitored.map MonitoredTx.id := by
  intro hm
  obtain ⟨tx, ht, rfl⟩ := mem_map.mp hm
  have ho : Ordered (w.blobs ++ seq :: rest) := hp.1 ▸ h.ordered.sublist (tail_sublist _)
  have hto := (pairwise_append.mp ho.1).2.2 tx.sequence
    (h.phase.finished hs tx ht).2 seq mem_cons_self
  have hn := h.numbered tx ht
  omega

lemma Good.sendNext_fine (he : Settled w) (hs : Split w (cs :: rest)) (hsn : Sendable geth get cs) :
    ∃ w', ZkblobSender.sendNext geth get .fine w = ok w' ∧ w'.sequences = w.sequences ∧ (w'.blobs =
    w.blobs ++ [cs] ∨ w'.blobs = w.blobs ∧ Split w' (cs :: rest) ∧ ¬Settled w') := by
  obtain ⟨hnn, ha⟩ := h.addZkBlob_eq hs.1
  obtain ⟨bs, nums, hr, hn⟩ := hsn
  have hq := seqBlobs_eq h.ordered hs.1 hs.2.1 (hs.last_ne h.ordered)
  rw [ZkblobSender.sendNext]
  simp only [Calls.fine, hq, Bool.false_eq_true, if_false, ZkblobSender.sendCurrent, hnn]
  rcases nums with _ | ⟨first, oth⟩
  · have hrs : ∀ ids, sendZkblob geth get ⟨false, true, false⟩ ids cs = ok .noZkBlobsToSend := by
      intro ids
      rw [sendZkblob, hr]
      simp [hn]
    rw [hrs]
    simp only [ok_bind, ha]
    exact ⟨_, rfl, rfl, .inl rfl⟩
  have hf := (batchNums_bounds hr hn first mem_cons_self).1
  have hfr := h.id_not_mem he hs (show cs.fromBatchNum ≤ (first, oth.getLastD first).1 from hf)
  have hrs : sendZkblob geth get ⟨false, true, false⟩
      (w.monitored.map MonitoredTx.id) cs = ok (.added (first, oth.getLastD first)) := by
    rw [sendZkblob, hr]
    simp only [Bool.true_eq_false, if_false, hn, ok_bind, Bool.false_eq_true,
      false_or, if_neg hfr]
  rw [hrs]
  simp only [ok_bind]
  refine ⟨_, rfl, rfl, .inr ⟨rfl, ⟨hs.1, prefix_refl _, .inr (.inr rfl)⟩, ?_⟩⟩
  intro ht
  have hd := ht.2 ⟨_, cs, .pending⟩ (mem_append_right _ (mem_singleton_self _))
  cases hd

lemma Good.records_of_settled (hs : Settled w) (ht : w.memory.retry = false)
    (hsl : Split w (seq :: rest)) (he : Sendable geth get seq) : Records geth get w [seq] := by
  obtain ⟨w', hn, hq, hr⟩ := h.sendNext_fine hs hsl he
  have hp : Step geth get Settled w w' := .sent .fine hs ht hn
  have hg := h.sendNext hs hn
  rcases hr with hc | ⟨hb, hl, hu⟩
  · exact ⟨w', .single hp, hg, hq, hc⟩
  · exact Records.head hp hq hb (hg.records_of_waiting hu hl)

lemma Good.records_current (hp : Split w (seq :: rest)) (hn : Sendable geth get seq) : Records
    geth get w [seq] := by
  by_cases hs : Settled w
  · cases hr : w.memory.retry with
    | false => exact h.records_of_settled hs hr hp hn
    | true =>
      refine Records.head (.retried hs hr) rfl rfl ?_
      exact Good.records_of_settled ⟨h.ordered, h.split, h.posted, h.numbered,
        h.phase.congr rfl rfl rfl rfl rfl⟩ hs rfl hp hn
  · exact h.records_of_waiting hs hp

/-- The loop can go on until all sequences are recorded. -/
lemma Good.records_all (hp : Split w todo) (hs : ∀ seq ∈ todo, Sendable geth get seq) : Records
    geth get w todo := by
  induction todo generalizing w with
  | nil => exact ⟨w, .refl, h, rfl, (append_nil _).symm⟩
  | cons cs rest ih =>
    obtain ⟨w₁, hst, hg, hq, hb⟩ := h.records_current hp (hs cs mem_cons_self)
    obtain ⟨todo, hspl₁⟩ := hg.split
    have hd : todo = rest := by
      have ht := hspl₁.1
      rw [hq, hp.1, hb, append_assoc, singleton_append] at ht
      exact (List.cons.inj (append_cancel_left ht)).2.symm
    subst hd
    obtain ⟨w₂, hsteps₂, hgood₂, hseqs₂, hblobs₂⟩ :=
      ih hg hspl₁ fun seq he => hs seq (mem_cons_of_mem _ he)
    refine ⟨w₂, hst.trans hsteps₂, hgood₂, hseqs₂.trans hq, ?_⟩
    rw [hblobs₂, hb, append_assoc, singleton_append]
end

def batchTwo (i : ℕ) : Option GoBytes :=
  if i = 2 then some zeroTxBytes else none

def newWorld : World := ⟨[⟨1, 1⟩, ⟨2, 2⟩], [], [], .fresh⟩

def postedWorld : World :=
  ⟨[⟨1, 1⟩, ⟨2, 2⟩], [], [⟨(2, 2), ⟨2, 2⟩, .pending⟩], ⟨[⟨2, 2⟩], ⟨2, 2⟩, false, false⟩⟩

lemma ordered_newWorld : Ordered newWorld.sequences := by
  constructor
  · decide
  · decide

lemma sendNext_newWorld :
    sendNext .reference batchTwo .fine newWorld = ok postedWorld := by decide +kernel

lemma settled_newWorld : Settled newWorld := ⟨rfl, fun _ ht => absurd ht not_mem_nil⟩

end

end EthdaNode.Blob.ZkblobSender
