import EthdaNode.State.ClosedBatches
import EthdaNode.Synchronizer.SequenceBatches

/-!
# What sequenced batches leave in the database

A round of `ProcessSequenceBatches` changes no batch with a smaller number. Either it keeps
all batches with a greater number, or it deletes them. With this the effect of the whole loop
is found by induction over the sequenced batches.
-/

namespace EthdaNode.Synchronizer

open State List Table Db
open L1InfoTree (zeroHash)
open Sequencer (Hash)
open Go Go.Outcome

variable {env : SyncEnv} {bn : UInt64} {lt : ℤ} {db db' : Db} {sb : SequencedBatch}

variable {p : Prepared}

lemma prepare_eq_ok (h : prepare env db sb lt = ok p) : p.batch.batchNumber = sb.batchNumber ∧
    p.processCtx.batchNumber = sb.batchNumber ∧ p.batch.batchL2Data = sb.data.transactions ∧
    p.processCtx.batchL2Data = some sb.data.transactions ∧ p.batch.timestamp =
    env.timeProviderNow := by
  rw [prepare] at h
  split_ifs at h with hf hi
  · rw [prepareForced] at h
    rcases hn : db.getNextForcedBatches 1 with _ | ⟨fb, rest⟩
    · rw [hn] at h
      cases h
    rw [hn] at h
    dsimp only at h
    split_ifs at h with hm
    cases h
    push Not at hm
    exact ⟨rfl, rfl, rfl, congrArg some hm.2.2, rfl⟩
  · cases h
    exact ⟨rfl, hi.2.symm, rfl, rfl, rfl⟩
  rw [prepareRegular] at h
  rcases hr : sb.l1InfoRoot with _ | lir
  · rw [hr] at h
    cases h
  rw [hr] at h
  obtain ⟨⟨leaves, root, mge⟩, -, h⟩ := ok_of_bind h
  cases h
  exact ⟨rfl, rfl, rfl, rfl, rfl⟩

/-! ## Rows of a sequenced batch -/

/-- The batch is stored closed with the data of L1 and the state root that the executor
computes from the batch before. -/
def StoredFromL1 (env : SyncEnv) (db : Db) (sbatch : SequencedBatch) : Prop :=
  ∃ row previous request response, db.batches.find? sbatch.batchNumber.toNat = some row ∧
    db.batches.find? (sbatch.batchNumber - 1).toNat = some previous ∧
    row.wip = false ∧ row.batchL2Data = sbatch.data.transactions ∧
    request.oldBatchNum = sbatch.batchNumber - 1 ∧
    request.batchL2Data = sbatch.data.transactions ∧
    request.oldStateRoot = previous.stateRoot ∧
    request.oldAccInputHash = previous.accInputHash ∧
    env.executor request = some response ∧ row.stateRoot = response.newStateRoot

/-- The trusted batch has what the stored batch has. -/
def sameContent (trusted row : BatchRow) : Bool :=
  trusted.stateRoot = row.stateRoot && trusted.batchL2Data = row.batchL2Data &&
    trusted.globalExitRoot = row.globalExitRoot && trusted.coinbase = row.coinbase &&
    trusted.wip = row.wip

def FreshAbove (db : Db) (batchNumber : UInt64) (sequenced : List SequencedBatch) : Prop :=
  ∀ row ∈ db.batches.rows, batchNumber < row.batchNumber →
    ∃ sbatch ∈ sequenced, sbatch.batchNumber = row.batchNumber

structure Rows (env : SyncEnv) (db : Db) (sbatch : SequencedBatch) (db' : Db) : Prop where
  stored : StoredFromL1 env db' sbatch
  below : ∀ k, k < sbatch.batchNumber.toNat → db'.batches.find? k = db.batches.find? k ∧
      db'.virtualBatches.find? k = db.virtualBatches.find? k
  numbers : ∀ row ∈ db'.batches.rows, row.batchNumber = sbatch.batchNumber ∨
      ∃ old ∈ db.batches.rows, old.batchNumber = row.batchNumber
  sequences : ∀ s ∈ db'.sequences.rows, s ∈ db.sequences.rows
  kept : ((∀ k, k ≠ sbatch.batchNumber.toNat → db'.batches.find? k = db.batches.find? k) ∧
      ∀ trusted, db.batches.find? sbatch.batchNumber.toNat = some trusted →
        trusted.timestamp ≤ env.timeProviderNow ∧
        ∃ row, db'.batches.find? sbatch.batchNumber.toNat = some row ∧
          sameContent trusted row = true) ∨
    ∀ row ∈ db'.batches.rows, row.batchNumber ≤ sbatch.batchNumber

structure Round (env : SyncEnv) (blockNumber : UInt64) (l1BlockTimestamp : ℤ) (db : Db)
    (sbatch : SequencedBatch) (db' : Db) : Prop extends Rows env db sbatch db' where
  isVirtual : ∃ l1InfoRoot, db'.virtualBatches.find? sbatch.batchNumber.toNat =
    some (virtualBatchOf sbatch blockNumber l1InfoRoot l1BlockTimestamp)

variable {n : UInt64}

/-- Rows that are found elsewhere only if they were there have old numbers. -/
lemma numbers_of_find? (h : ∀ k row, k ≠ n.toNat → db'.batches.find? k = some row →
    db.batches.find? k = some row) : ∀ row ∈ db'.batches.rows, row.batchNumber = n ∨
    ∃ old ∈ db.batches.rows, old.batchNumber = row.batchNumber := by
  intro row hr
  by_cases hn : row.batchNumber = n
  · exact .inl hn
  have he : row.key ≠ n.toNat := fun hq => hn (UInt64.toNat_inj.mp hq)
  have ho := h row.key row he (find?_mem hr)
  exact .inr ⟨row, (find?_eq_some_iff.mp ho).1, rfl⟩

variable {ctx : ProcessingContextV2}

variable {nr : Hash}

lemma storedFromL1_of_closedFrom (hp : 0 < sbatch.batchNumber) (hn : ctx.batchNumber =
    sbatch.batchNumber) (hd : ctx.batchL2Data = some sbatch.data.transactions)
    (h : ClosedFrom env.toStateEnv db ctx db' nr) : StoredFromL1 env db' sbatch := by
  obtain ⟨row, last, data, req, res, hr, hl, hct, hcl, hro, ht, -, ho, hq, hod, hc, he, hw⟩ := h.row
  obtain ⟨last', ha, hs⟩ := h.next
  obtain rfl : last = last' := Option.mem_unique hl ha
  obtain rfl : data = sbatch.data.transactions := Option.mem_unique hct hd
  rw [hn] at hr ho hs
  have hpr : (sbatch.batchNumber - 1).toNat = last.key := by
    have := toNat_pred hp
    rw [← hs] at this
    exact Nat.succ.inj this
  have hv : db'.batches.find? (sbatch.batchNumber - 1).toNat = some last := by
    rw [h.others _ (by rw [hn]; have := toNat_pred hp; omega), hpr]
    exact find?_mem (last?_mem hl)
  exact ⟨row, last, req, res, hr, hv, hcl, hro, ho, hq, hod, hc, he, ht.trans hw⟩

lemma Rows.ofNew (hp : 0 < sb.batchNumber) (hn : ctx.batchNumber = sb.batchNumber)
    (hd : ctx.batchL2Data = some sb.data.transactions)
    (h : ClosedFrom env.toStateEnv db ctx db' nr)
    (hnn : db.batches.find? sb.batchNumber.toNat = none) : Rows env db sb db' where
  stored := storedFromL1_of_closedFrom hp hn hd h
  below := by
    intro k hk
    rw [h.virtualBatches]
    exact ⟨h.others k (by rw [hn]; exact hk.ne), rfl⟩
  numbers := by
    refine numbers_of_find? fun k row hk hr => ?_
    rw [← hn] at hk
    rw [← h.others k hk]
    exact hr
  sequences := by
    intro s hs
    rw [h.sequences] at hs
    exact hs
  kept := by
    refine .inl ⟨fun k hk => h.others k (by rw [hn]; exact hk), fun trs ht => ?_⟩
    rw [hnn] at ht
    cases ht

variable {db₁ : Db}

lemma le_of_reset (hp : 0 < sb.batchNumber) (hn : ctx.batchNumber = sb.batchNumber)
    (h : ClosedFrom env.toStateEnv (db₁.resetTrustedState (sb.batchNumber - 1)) ctx db'
    nr) : ∀ row ∈ db'.batches.rows, row.batchNumber ≤ sb.batchNumber := by
  intro row hr
  by_contra hg
  have hg : sb.batchNumber.toNat < row.key := UInt64.lt_iff_toNat_lt.mp (UInt64.not_le.mp hg)
  have hf := find?_mem hr
  rw [h.others row.key (by rw [hn]; exact hg.ne')] at hf
  have hb : (sb.batchNumber - 1).toNat < row.key := by
    have := toNat_pred hp
    omega
  have hnn : (db₁.batches.upTo (sb.batchNumber - 1).toNat).find? row.key = none :=
    find?_upTo_none hb
  exact Option.some_ne_none row (hf.symm.trans hnn)

lemma Rows.ofReset (hp : 0 < sb.batchNumber) (hn : ctx.batchNumber = sb.batchNumber)
    (hd : ctx.batchL2Data = some sb.data.transactions)
    (ho : ∀ k, k ≠ sb.batchNumber.toNat → db₁.batches.find? k = db.batches.find? k)
    (hv : db₁.virtualBatches = db.virtualBatches) (hq : db₁.sequences = db.sequences)
    (h : ClosedFrom env.toStateEnv (db₁.resetTrustedState (sb.batchNumber - 1)) ctx db'
    nr) : Rows env db sb db' where
  stored := storedFromL1_of_closedFrom hp hn hd h
  below := by
    intro k hk
    have hl : k ≤ (sb.batchNumber - 1).toNat := by
      have := toNat_pred hp
      omega
    rw [h.others k (by rw [hn]; exact hk.ne), h.virtualBatches, ← ho k hk.ne, ← hv]
    exact ⟨find?_upTo hl, find?_upTo hl⟩
  numbers := by
    refine numbers_of_find? fun k row hk hr => ?_
    rw [h.others k (by rw [hn]; exact hk)] at hr
    obtain ⟨hm, hy⟩ := find?_eq_some_iff.mp hr
    rw [← ho k hk, ← hy]
    exact find?_mem (mem_of_mem_filter hm)
  sequences := by
    intro s hs
    rw [h.sequences] at hs
    rw [← hq]
    exact mem_of_mem_filter hs
  kept := .inr (le_of_reset hp hn h)

variable {tb : BatchRow}

/-- A batch that is executed again gets a timestamp and a hash; the answer starts from the
batch before. -/
lemma reprocess_ok (hs : 0 < sb.batchNumber) (hn : p.batch.batchNumber = sb.batchNumber)
    (ht : db.batches.find? sb.batchNumber.toNat = some tb)
    (h : reprocess env db p = ok (db', nr)) :
    ∃ prev response timestamp accInputHash,
    db.batches.find? (sb.batchNumber - 1).toNat = some prev ∧
    env.executor (reprocessRequest env p prev) = some response ∧
    nr = response.newStateRoot ∧
    db' = (db.updateBatchTimestamp sb.batchNumber timestamp).addAccumulatedInputHash
    sb.batchNumber accInputHash ∧
    db'.batches.find? sb.batchNumber.toNat = some { tb with timestamp, accInputHash } ∧
    ∀ k, k ≠ sb.batchNumber.toNat → db'.batches.find? k = db.batches.find? k := by
  rw [reprocess, hn] at h
  obtain ⟨prev, hp, h⟩ := ok_of_bind h
  obtain ⟨response, hr, h⟩ := ok_of_bind h
  cases h
  have hne : (sb.batchNumber - 1).toNat ≠ sb.batchNumber.toNat := by
    have := toNat_pred hs
    omega
  have hp := required_ok hp
  rw [find?_updateBatchTimestamp_of_ne _ hne] at hp
  have he : env.executor (reprocessRequest env p prev) = some response := by
    rw [executeBatchV2] at hr
    rcases ha : env.executor (reprocessRequest env p prev) with _ | answer
    · rw [ha] at hr
      cases hr
    rw [ha] at hr
    dsimp only at hr
    split_ifs at hr
    cases hr
    rfl
  refine ⟨prev, response, p.timestamp, response.newAccInputHash, hp, he, rfl,
    rfl, ?_, fun k hk => ?_⟩
  · rw [find?_addAccumulatedInputHash, find?_updateBatchTimestamp, ht]
    rfl
  · rw [find?_addAccumulatedInputHash_of_ne _ hk, find?_updateBatchTimestamp_of_ne _ hk]

lemma checkState_eq_false {batch : VirtualContent}
    (h : checkTrustedState batch tb nr = false) : nr = tb.stateRoot ∧ batch.batchL2Data =
    tb.batchL2Data ∧ tb.timestamp ≤ batch.timestamp ∧ tb.wip = false := by
  simp only [checkTrustedState, Bool.or_eq_false_iff, decide_eq_false_iff_not, ne_eq,
    not_not, not_lt] at h
  obtain ⟨⟨⟨⟨⟨hr, hd⟩, -⟩, ht⟩, -⟩, hw⟩ := h
  exact ⟨hr, hd, ht, hw⟩

lemma Rows.ofSame (hp : 0 < sb.batchNumber) (hn : p.batch.batchNumber = sb.batchNumber)
    (hd : p.batch.batchL2Data = sb.data.transactions) (hi : p.batch.timestamp = env.timeProviderNow)
    (ht : db.batches.find? sb.batchNumber.toNat = some tb) (h : reprocess env db p = ok (db', nr))
    (hm : checkTrustedState p.batch tb nr = false) : Rows env db sb db' := by
  obtain ⟨previous, response, timestamp, accInputHash, hpr, he, hrt, rfl, hr,
    ho⟩ := reprocess_ok hp hn ht h
  obtain ⟨hst, hb, htm, hw⟩ := checkState_eq_false hm
  have hne : (sb.batchNumber - 1).toNat ≠ sb.batchNumber.toNat := by
    have := toNat_pred hp
    omega
  refine ⟨?_, fun k hk => ⟨ho k hk.ne, rfl⟩, ?_, fun s hs => hs, .inl ⟨ho, ?_⟩⟩
  · refine ⟨_, previous, reprocessRequest env p previous, response, hr, (ho _ hne).trans hpr, hw,
      hb.symm.trans hd, ?_, hd, rfl, rfl, he, hst.symm.trans hrt⟩
    exact congrArg (· - 1) hn
  · refine numbers_of_find? fun k row hk hf => ?_
    rw [← ho k hk]
    exact hf
  intro trusted hts
  obtain rfl : tb = trusted := Option.mem_unique ht hts
  refine ⟨htm.trans_eq hi, _, hr, ?_⟩
  simp [sameContent]

lemma addVirtualBatch_ok {virtualBatch : VirtualBatch}
    (h : db.addVirtualBatch virtualBatch = ok db') :
    ∃ virtualBatches, db.virtualBatches.insert virtualBatch = some virtualBatches ∧
    db' = { db with virtualBatches } := by
  rw [addVirtualBatch] at h
  obtain ⟨_, -, h⟩ := ok_of_bind h
  obtain ⟨_, -, h⟩ := ok_of_bind h
  obtain ⟨virtualBatches, hi, h⟩ := ok_of_bind h
  cases h
  exact ⟨virtualBatches, inserted_ok hi, rfl⟩

lemma checkState_asTrusted (batch : VirtualContent) (nr : Hash) :
    checkTrustedState batch (asTrusted batch nr) nr = false := by
  simp [checkTrustedState, asTrusted]

lemma rows_of_executed (hs : 0 < sb.batchNumber) (hp : prepare env db sb lt = ok p)
    (he : executed env db p = ok (db₁, tb, nr))
    (hr : restored env db₁ p (checkTrustedState p.batch tb nr) = ok db') : Rows env db sb db' := by
  obtain ⟨hn, hct, hd, hc, hm⟩ := prepare_eq_ok hp
  rw [executed, hn] at he
  rcases ht : db.batches.find? sb.batchNumber.toNat with _ | trs
  · rw [ht] at he
    obtain ⟨⟨db₂, root, rest⟩, hsr, he⟩ := ok_of_bind he
    cases he
    rw [checkState_asTrusted] at hr
    cases hr
    exact .ofNew hs hct hc (closedFrom hsr) ht
  rw [ht] at he
  obtain ⟨⟨db₂, root⟩, hrp, he⟩ := ok_of_bind he
  cases he
  rcases hst : checkTrustedState p.batch tb nr with _ | _
  · rw [hst] at hr
    cases hr
    exact .ofSame hs hn hd hm ht hrp hst
  rw [hst, restored, if_pos rfl] at hr
  split_ifs at hr
  rw [hn] at hr
  obtain ⟨⟨db₃, rest⟩, hsr, hr⟩ := ok_of_bind hr
  cases hr
  obtain ⟨_, _, _, _, -, -, -, rfl, -, ho⟩ := reprocess_ok hs hn ht hrp
  exact .ofReset hs hct hc ho rfl rfl (closedFrom hsr)

lemma round_of_ok (hps : 0 < sb.batchNumber) (h : processSequencedBatch env bn lt db sb = ok db') :
    Round env bn lt db sb db' := by
  rw [processSequencedBatch] at h
  obtain ⟨p, hp, h⟩ := ok_of_bind h
  obtain ⟨⟨db₁, tb, nr⟩, he, h⟩ := ok_of_bind h
  obtain ⟨db₂, hs, h⟩ := ok_of_bind h
  have hr : Rows env db sb db₂ :=
    rows_of_executed hps hp (mapErr_ok_iff.mp he) (mapErr_ok_iff.mp hs)
  obtain ⟨virtualBatches, hi, rfl⟩ := addVirtualBatch_ok (mapErr_ok_iff.mp h)
  refine ⟨⟨hr.stored, fun k hk => ?_, hr.numbers, hr.sequences, hr.kept⟩,
    p.processCtx.l1InfoRoot, find?_insert_self hi⟩
  obtain ⟨hb, hv⟩ := hr.below k hk
  exact ⟨hb, (find?_insert_of_ne hi hk.ne).trans hv⟩

def Differed (env : SyncEnv) (l1BlockTimestamp : ℤ) (db : Db) (sbatch : SequencedBatch) : Prop :=
  ∃ p db₁ tBatch newRoot, prepare env db sbatch l1BlockTimestamp = ok p ∧
    executed env db p = ok (db₁, tBatch, newRoot) ∧
    checkTrustedState p.batch tBatch newRoot = true

lemma Differed.le (hd : Differed env lt db sb) (hps : 0 < sb.batchNumber)
    (h : processSequencedBatch env bn lt db sb = ok db') :
    ∀ row ∈ db'.batches.rows, row.batchNumber ≤ sb.batchNumber := by
  obtain ⟨p, db₁, tb, nr, hp, he, ht⟩ := hd
  obtain ⟨hn, hc, -, -, -⟩ := prepare_eq_ok hp
  rw [processSequencedBatch, hp, ok_bind, he, mapErr_ok, ok_bind] at h
  dsimp only at h
  rw [ht] at h
  obtain ⟨db₂, hr, h⟩ := ok_of_bind h
  have hr := mapErr_ok_iff.mp hr
  rw [restored, if_pos rfl] at hr
  split_ifs at hr
  rw [hn] at hr
  obtain ⟨⟨db₃, root, rest⟩, hs, hr⟩ := ok_of_bind hr
  cases hr
  obtain ⟨vbs, -, rfl⟩ := addVirtualBatch_ok (mapErr_ok_iff.mp h)
  have hl := le_of_reset hps hc (closedFrom hs)
  exact hl

/-! ## The loop -/

structure Run (env : SyncEnv) (blockNumber : UInt64) (l1BlockTimestamp : ℤ) (db : Db)
    (done : List SequencedBatch) (db' : Db) : Prop where
  stored : ∀ sbatch ∈ done, StoredFromL1 env db' sbatch
  isVirtual : ∀ sbatch ∈ done, ∃ l1InfoRoot, db'.virtualBatches.find? sbatch.batchNumber.toNat =
      some (virtualBatchOf sbatch blockNumber l1InfoRoot l1BlockTimestamp)
  sequences : ∀ s ∈ db'.sequences.rows, s ∈ db.sequences.rows
  changed : ∀ sbatch ∈ done, ∀ trusted row,
    db.batches.find? sbatch.batchNumber.toNat = some trusted →
    db'.batches.find? sbatch.batchNumber.toNat = some row →
    sameContent trusted row = false ∨ env.timeProviderNow < trusted.timestamp →
    FreshAbove db' sbatch.batchNumber done
  kept : (∀ k, (∀ sbatch ∈ done, k ≠ sbatch.batchNumber.toNat) →
      db'.batches.find? k = db.batches.find? k) ∨
    ∃ sbatch ∈ done, FreshAbove db' sbatch.batchNumber done

lemma Run.start : Run env bn lt db [] db where
  stored := nofun
  isVirtual := nofun
  sequences := fun _ hs => hs
  changed := nofun
  kept := .inl fun _ _ => rfl

variable {done : List SequencedBatch}

lemma FreshAbove.mono {m : UInt64} (h : FreshAbove db m done) (hl : m ≤ n) :
    FreshAbove db n done := fun row hr ht =>
  h row hr (UInt64.lt_of_le_of_lt hl ht)

lemma FreshAbove.round (h : FreshAbove db n done) (hr : Round env bn lt db sb db') :
    FreshAbove db' n (done ++ [sb]) := by
  intro row hw hl
  rcases hr.numbers row hw with hn | ⟨old, hold, hn⟩
  · exact ⟨sb, mem_append_cons_self, hn.symm⟩
  rw [← hn] at hl
  obtain ⟨a, ha, hs⟩ := h old hold hl
  exact ⟨a, mem_append_left _ ha, hs.trans hn⟩

lemma StoredFromL1.congr {a : SequencedBatch} (h : StoredFromL1 env db a)
    (hw : db'.batches.find? a.batchNumber.toNat = db.batches.find? a.batchNumber.toNat)
    (hp : db'.batches.find? (a.batchNumber - 1).toNat =
    db.batches.find? (a.batchNumber - 1).toNat) : StoredFromL1 env db' a := by
  obtain ⟨row, previous, req, res, h₁, h₂, hr⟩ := h
  exact ⟨row, previous, req, res, hw.trans h₁, hp.trans h₂, hr⟩

lemma Run.round {db₀ : Db} (h : Run env bn lt db₀ done db) (hr : Round env bn lt db sb db')
    (hps : ∀ a ∈ done, 0 < a.batchNumber) (hlt : ∀ a ∈ done, a.batchNumber < sb.batchNumber) :
    Run env bn lt db₀ (done ++ [sb]) db' := by
  have hl : ∀ a ∈ done, a.batchNumber.toNat < sb.batchNumber.toNat := fun a ha =>
    UInt64.lt_iff_toNat_lt.mp (hlt a ha)
  have hf : (∃ a ∈ done, FreshAbove db a.batchNumber done) →
      FreshAbove db' sb.batchNumber (done ++ [sb]) := by
    rintro ⟨a, ha, hf⟩
    exact (hf.round hr).mono (UInt64.le_of_lt (hlt a ha))
  refine ⟨fun a ha => ?_, fun a ha => ?_, fun s hs => h.sequences s (hr.sequences s hs),
    fun a ha => ?_, ?_⟩
  · rcases mem_append.mp ha with ha | ha
    · have hpr : (a.batchNumber - 1).toNat < sb.batchNumber.toNat := by
        have := toNat_pred (hps a ha)
        have := hl a ha
        omega
      exact (h.stored a ha).congr (hr.below _ (hl a ha)).1 (hr.below _ hpr).1
    · obtain rfl := mem_singleton.mp ha
      exact hr.stored
  · rcases mem_append.mp ha with ha | ha
    · obtain ⟨l1InfoRoot, hfn⟩ := h.isVirtual a ha
      exact ⟨l1InfoRoot, (hr.below _ (hl a ha)).2.trans hfn⟩
    · obtain rfl := mem_singleton.mp ha
      exact hr.isVirtual
  · intro trusted row ht hw hd
    rcases mem_append.mp ha with ha | ha
    · rw [(hr.below _ (hl a ha)).1] at hw
      exact (h.changed a ha trusted row ht hw hd).round hr
    obtain rfl := mem_singleton.mp ha
    rcases h.kept with hp | hrs
    · rw [← hp _ fun b hb => (hl b hb).ne'] at ht
      rcases hr.kept with ⟨-, hm⟩ | hn
      · obtain ⟨htm, row', hro, hc⟩ := hm trusted ht
        obtain rfl : row = row' := Option.mem_unique hw hro
        rcases hd with hd | hd
        · rw [hc] at hd
          cases hd
        · exact absurd htm hd.not_ge
      · intro row' hro hab
        exact absurd (hn row' hro) (UInt64.not_le.mpr hab)
    · exact hf hrs
  · rcases h.kept with hp | hrs
    · rcases hr.kept with ⟨ho, -⟩ | hn
      · refine .inl fun k hk => ?_
        rw [ho k (hk sb mem_append_cons_self)]
        exact hp k fun a ha => hk a (mem_append_left _ ha)
      refine .inr ⟨sb, mem_append_cons_self, ?_⟩
      intro row hw hab
      exact absurd (hn row hw) (UInt64.not_le.mpr hab)
    · exact .inr ⟨sb, mem_append_cons_self, hf hrs⟩

lemma Run.foldlM {db₀ : Db} {done seqd : List SequencedBatch} (h : Run env bn lt db₀ done db)
    (hi : (done ++ seqd).Pairwise fun a b => a.batchNumber < b.batchNumber)
    (hp : ∀ a ∈ done ++ seqd, 0 < a.batchNumber)
    (hr : seqd.foldlM (processSequencedBatch env bn lt) db =
    ok db') : Run env bn lt db₀ (done ++ seqd) db' := by
  induction seqd generalizing done db with
  | nil =>
    cases hr
    rw [append_nil]
    exact h
  | cons sb seqd ih =>
    rw [foldlM_cons] at hr
    obtain ⟨db₁, hf, hr⟩ := ok_of_bind hr
    have hrd := round_of_ok (hp sb mem_append_cons_self) hf
    have hl : ∀ a ∈ done, a.batchNumber < sb.batchNumber := fun a ha =>
      (pairwise_append.mp hi).2.2 a ha sb mem_cons_self
    have hd := h.round hrd (fun a ha => hp a (mem_append_left _ ha)) hl
    rw [append_cons] at hi hp ⊢
    exact ih hd hi hp hr

lemma FreshAbove.foldlM {done seqd : List SequencedBatch} {n : UInt64} (h : FreshAbove db n done)
    (hp : ∀ a ∈ seqd, 0 < a.batchNumber) (hr : seqd.foldlM (processSequencedBatch env bn lt) db =
    ok db') : FreshAbove db' n (done ++ seqd) := by
  induction seqd generalizing done db with
  | nil =>
    cases hr
    rw [append_nil]
    exact h
  | cons sb seqd ih =>
    rw [foldlM_cons] at hr
    obtain ⟨db₁, hs, hr⟩ := ok_of_bind hr
    have hf := h.round (round_of_ok (hp sb mem_cons_self) hs)
    rw [append_cons]
    exact ih hf (fun a ha => hp a (mem_cons_of_mem sb ha)) hr

/-- If a batch differed in its round, all batches after it were stored by the rounds. -/
lemma freshAbove_of_differed {bef after : List SequencedBatch}
    (hp : ∀ a ∈ bef ++ sb :: after, 0 < a.batchNumber)
    (hb : bef.foldlM (processSequencedBatch env bn lt) db = ok db₁) (hd : Differed env lt db₁ sb)
    (hr : (bef ++ sb :: after).foldlM (processSequencedBatch env bn lt) db = ok db') : FreshAbove
    db' sb.batchNumber (bef ++ sb :: after) := by
  rw [List.foldlM_append, hb, ok_bind, List.foldlM_cons] at hr
  obtain ⟨db₂, hrd, hr⟩ := ok_of_bind hr
  have he := hd.le (hp sb mem_append_cons_self) hrd
  have hf : FreshAbove db₂ sb.batchNumber (bef ++ [sb]) := fun row hw hl =>
    absurd (he row hw) (UInt64.not_le.mpr hl)
  rw [append_cons] at hp ⊢
  exact hf.foldlM (fun a ha => hp a (mem_append_right _ ha)) hr

lemma addSeq_ok {sequence : Sequence} (h : db.addSequence sequence = ok db') :
    (∃ sequences, db' = { db with sequences }) ∧ sequence ∈ db'.sequences.rows ∧
    ∀ s ∈ db'.sequences.rows, s = sequence ∨ s ∈ db.sequences.rows := by
  rw [addSequence] at h
  obtain ⟨_, -, h⟩ := ok_of_bind h
  obtain ⟨_, -, h⟩ := ok_of_bind h
  cases hi : db.sequences.insert sequence with
  | some sequences =>
    rw [hi] at h
    cases h
    refine ⟨⟨sequences, rfl⟩, (mem_insert hi).mpr (.inl rfl), fun s hs => ?_⟩
    exact (mem_insert hi).mp hs
  | none =>
    rw [hi] at h
    cases h
    have hr : ∀ s : Sequence, s.key = sequence.key →
        { s with toBatchNumber := sequence.toBatchNumber } = sequence := by
      intro s hk
      have hfr : s.fromBatchNumber = sequence.fromBatchNumber := UInt64.toNat_inj.mp hk
      cases s
      cases sequence
      cases hfr
      rfl
    refine ⟨⟨_, rfl⟩, ?_, fun s hs => ?_⟩
    · -- there is a sequence from the same batch, for the insertion failed
      cases hf : db.sequences.find? sequence.key with
      | none =>
        rw [insert_of_new hf] at hi
        cases hi
      | some old =>
        obtain ⟨ho, hk⟩ := find?_eq_some_iff.mp hf
        refine mem_map.mpr ⟨old, ho, ?_⟩
        rw [if_pos hk]
        exact hr old hk
    · obtain ⟨old, ho, rfl⟩ := mem_map.mp hs
      by_cases hk : old.key = sequence.key
      · rw [if_pos hk]
        exact .inl (hr old hk)
      · rw [if_neg hk]
        exact .inr ho

/-- Every sequenced batch is stored closed, with the data of L1 and the state root computed from the
batch before, and there is one virtual batch for it; the sequence is added. After a trusted batch
that differed, in its round or in the end, all batches were stored by this call. -/
theorem processSequenceBatches_stores (env : SyncEnv) (db db' : Db)
    (sequenced : SequencedBatches) (blockNumber : UInt64) (l1BlockTimestamp : ℤ)
    (h : processSequenceBatches env db sequenced.batches blockNumber l1BlockTimestamp = ok db') :
    (∀ sbatch ∈ sequenced.batches, StoredFromL1 env db' sbatch ∧ ∃ l1InfoRoot,
    virtualBatchOf sbatch blockNumber l1InfoRoot l1BlockTimestamp ∈ db'.virtualBatches.rows ∧
    ∀ v ∈ db'.virtualBatches.rows, v.batchNumber = sbatch.batchNumber →
    v = virtualBatchOf sbatch blockNumber l1InfoRoot l1BlockTimestamp) ∧
    (∀ first last, sequenced.batches.head? = some first → sequenced.batches.getLast? = some last →
    ⟨first.batchNumber, last.batchNumber⟩ ∈ db'.sequences.rows ∧ ∀ s ∈ db'.sequences.rows,
    s = ⟨first.batchNumber, last.batchNumber⟩ ∨ s ∈ db.sequences.rows) ∧
    (∀ before sbatch after db₁, sequenced.batches = before ++ sbatch :: after →
    before.foldlM (processSequencedBatch env blockNumber l1BlockTimestamp) db = ok db₁ →
    Differed env l1BlockTimestamp db₁ sbatch →
    FreshAbove db' sbatch.batchNumber sequenced.batches) ∧
    ∀ sbatch ∈ sequenced.batches, ∀ trusted row,
    db.batches.find? sbatch.batchNumber.toNat = some trusted →
    db'.batches.find? sbatch.batchNumber.toNat = some row →
    sameContent trusted row = false ∨ env.timeProviderNow < trusted.timestamp →
    FreshAbove db' sbatch.batchNumber sequenced.batches := by
  obtain ⟨batches, hi, hp⟩ := sequenced
  rcases batches with _ | ⟨first, rest⟩
  · exact ⟨nofun, nofun, fun before sbatch after _ h => by simp at h, nofun⟩
  rw [processSequenceBatches] at h
  obtain ⟨db₁, hlp, h⟩ := ok_of_bind h
  have hr := Run.start.foldlM hi hp hlp
  obtain ⟨⟨sequences, rfl⟩, had, ho⟩ := addSeq_ok (mapErr_ok_iff.mp h)
  refine ⟨fun sbatch hsb => ⟨hr.stored sbatch hsb, ?_⟩, ?_, ?_, hr.changed⟩
  · obtain ⟨l1InfoRoot, hfn⟩ := hr.isVirtual sbatch hsb
    have hm := (find?_eq_some_iff.mp hfn).1
    refine ⟨l1InfoRoot, hm, fun v hv hn => ?_⟩
    exact eq_of_key_eq hv hm (congrArg UInt64.toNat hn)
  · intro first' last hfs hls
    obtain rfl : first = first' := Option.some.inj hfs
    have hls : (first :: rest).getLast (cons_ne_nil first rest) = last := by
      rw [List.getLast?_eq_some_getLast (cons_ne_nil first rest)] at hls
      exact Option.some.inj hls
    rw [hls] at had ho
    exact ⟨had, fun s hs => (ho s hs).imp_right (hr.sequences s)⟩
  · intro before sbatch after db₂ hsp hb hd
    have hfr : FreshAbove db₁ sbatch.batchNumber (before ++ sbatch :: after) :=
      freshAbove_of_differed (by rw [← hsp]; exact hp) hb hd
        (by rw [← hsp]; exact hlp)
    rw [← hsp] at hfr
    exact hfr

def zeroAddress : Address := .zero

def trustedBatch (batchNumber : UInt64) (batchL2Data : List UInt8) : BatchRow where
  batchNumber
  coinbase := zeroAddress
  batchL2Data
  stateRoot := zeroHash
  localExitRoot := zeroHash
  accInputHash := zeroHash
  timestamp := 0
  globalExitRoot := zeroHash
  forcedBatchNum := none
  resources := ⟨Sequencer.zeroCounters, 0⟩
  highReservedZKCounters := Sequencer.zeroCounters
  wip := false

def trustedDb : Db where
  blocks := .single ⟨10, zeroHash, zeroHash, 0⟩
  batches := ⟨[trustedBatch 3 [3], trustedBatch 2 [2], trustedBatch 1 [1]], by decide⟩
  l2Blocks := .empty
  virtualBatches := .empty
  sequences := .empty
  forcedBatches := .empty

/-- An executor that answers every request with the zero state root and no blocks. -/
def quietEnv : SyncEnv where
  executor := fun _ => some
    { newStateRoot := zeroHash, newAccInputHash := zeroHash, newLocalExitRoot := zeroHash,
      usedZkCounters := Sequencer.zeroCounters, blockResponses := [], addressesParse := true,
      flushId := 0, storedFlushId := 0, proverId := "", error := .noError,
      errorRom := .noError }
  decodeTx := some
  getForkIDByBatchNumber := fun _ => 7
  chainID := 0
  currentL1InfoRoot := zeroHash
  l2BlockHash := fun _ _ _ => zeroHash
  now := 0
  getL1InfoTreeData := fun _ => ok ([], zeroHash, zeroHash)
  timeProviderNow := 0
  isTrustedSequencer := false

def sequencedTwo : SequencedBatches where
  batches := [⟨2, some zeroHash, zeroAddress, zeroHash, zeroAddress, ⟨[], zeroHash, 0, zeroHash⟩⟩]
  increasing := pairwise_singleton _ _
  positive := by decide

/-- Batch 2 differs: it is stored as L1 has it, and batch 3 is gone. -/
theorem processSequenceBatches_stores_two :
    ∃ db', processSequenceBatches quietEnv trustedDb sequencedTwo.batches 10 0 = ok db' ∧
    (∀ sbatch ∈ sequencedTwo.batches, StoredFromL1 quietEnv db' sbatch) ∧
    db'.batches.rows.map BatchRow.batchNumber = [2, 1] := by
  have hrn : (processSequenceBatches quietEnv trustedDb sequencedTwo.batches 10 0).any
      (fun db' => db'.batches.rows.map BatchRow.batchNumber = [2, 1]) = true := by
    decide +kernel
  obtain ⟨db', hrn, hrw⟩ := any_true_iff.mp hrn
  have hst := (processSequenceBatches_stores _ _ _ _ _ _ hrn).1
  exact ⟨db', hrn, fun sbatch hsb => (hst sbatch hsb).1, of_decide_eq_true hrw⟩

end EthdaNode.Synchronizer
