import EthdaNode.Synchronizer.InitialSync

/-!
# A restart of the initialization

The blocks from before the rollup stay in the database when the initialization fails, but the
genesis does not. The next call of `Sync` finds a block and takes the genesis for set. It then
fails, since there is no batch.
-/

namespace EthdaNode.Synchronizer.InitialSync

open State List Fallible Table
open L1InfoTree (zeroHash)
open Sequencer (Hash)
open Fallible
open Go Go.Outcome

variable {env : InitEnv} {fs : Point → Bool} {w : InitState}

/-! ## The calls -/

def blockPoints (b : PreGenesisBlock) : List Point :=
  [.beginBlock b.block.blockNumber] ++ ([.addBlock b.block.blockNumber] ++
    ((List.range b.orders.length).flatMap (fun position =>
        [.process b.block.blockNumber position]) ++
      ([.flush b.block.blockNumber] ++ [.commitBlock b.block.blockNumber])))

def rangePoints (env : InitEnv) (range : ℕ × ℕ) : List Point :=
  [.rollupInfo range.1] ++ ([.finalized range.1] ++
    (env.l1.rollupInfo range.1 range.2).flatMap blockPoints)

def genesisBlockPoints (env : InitEnv) : List Point :=
  [.genesisInfo] ++ ([.processForkID] ++
    if (sanityCheck env.l1.genesisInfo).any fun b => !b.sequencedBatches.isEmpty
    then [.processInitial] else [])

def genesisPoints (env : InitEnv) : List Point :=
  [.verifyGenBlockNumber] ++ ((preGenesisRanges env).flatMap (rangePoints env) ++
    ([.header] ++ ([.setGenesis] ++ (genesisBlockPoints env ++ [.flushGenesis]))))

def points (env : InitEnv) : List Point :=
  [.beginTx] ++ ([.getLastBlock] ++ (genesisPoints env ++
    ([.lastBatchNumber] ++ ([.setInitSyncBatch] ++ [.commit]))))

/-- The first block of the ranges is committed: no call fails up to its commit. -/
def FirstStored (env : InitEnv) (fails : Point → Bool) : List (ℕ × ℕ) → Prop
  | [] => False
  | range :: rest =>
    fails (.rollupInfo range.1) = false ∧ fails (.finalized range.1) = false ∧
      match env.l1.rollupInfo range.1 range.2 with
      | [] => FirstStored env fails rest
      | b :: _ => ∀ p ∈ blockPoints b, fails p = false

/-- A block from before the rollup is committed: there is one, and no call fails up to its commit.
-/
def StoresBlock (env : InitEnv) (fails : Point → Bool) : Prop :=
  fails .beginTx = false ∧ fails .getLastBlock = false ∧ fails .verifyGenBlockNumber = false ∧
    FirstStored env fails (preGenesisRanges env)

lemma calls_plainCall (p : Point) :
    Calls fs [p] (plainCall fs p) w (fun _ w' => w' = w) (fun w' => w' = w) :=
  .point rfl rfl rfl

lemma calls_call {α : Type} (p : Point) {f : InitState → Outcome InitError (InitState × α)}
    {a : α} {w' : InitState} (h : f w = ok (w', a)) :
    Calls fs [p] (call fs p f) w (fun a' w₁ => a' = a ∧ w₁ = w') (fun w₁ => w₁ = w) := by
  have hl : lift f w = (.ok a, w') := by rw [lift, h]
  exact .point hl ⟨rfl, rfl⟩ rfl

def emptyDb : Db := ⟨.empty, .empty, .empty, .empty, .empty, .empty⟩

def OnlyBlocks (db : Db) : Prop := ∃ blocks, db = { emptyDb with blocks }

/-- What a part of the initialization leaves: only blocks, and none but if `stored` says so. -/
def Left (stored : Prop) (w w' : InitState) : Prop :=
  OnlyBlocks w'.committed ∧ (w'.committed.blocks.rows ≠ [] ↔ stored ∨ w.committed.blocks.rows ≠ [])

variable {blocks : Table L1Block.key}

lemma calls_processBlock (fs : Point → Bool) {b : PreGenesisBlock}
    (hi : w.committed.blocks.insert b.block = some blocks) :
    Calls fs (blockPoints b) (processBlock fs b) w
    (fun _ w' => w'.committed = { w.committed with blocks }) (fun w' => w' = w) := by
  refine (calls_plainCall _).bind fun _ _ w₁ hw₁ => ?_
  subst hw₁
  have ha : (do
      let blocks ← (inserted w₁.committed.blocks b.block).mapErr InitError.state
      ok (w₁, blocks)) = ok (w₁, blocks) := by
    rw [inserted, hi]
    rfl
  refine (calls_call _ ha).bind fun _ a w₂ h => ?_
  obtain ⟨rfl, rfl⟩ := h
  have he : Calls fs ((List.range b.orders.length).flatMap fun position =>
      [Point.process b.block.blockNumber position])
      (forEach (fun position =>
      plainCall fs (.process b.block.blockNumber position))
      (List.range b.orders.length)) w₂ (fun _ w' => w' = w₂) (fun w' => w' = w₂) := by
    refine Calls.forEach (I := fun _ w' => w' = w₂) (fun position rest w' hw' => ?_) rfl
    subst hw'
    exact calls_plainCall _
  refine he.bind fun _ _ w₃ hw₃ => ?_
  subst hw₃
  refine (calls_plainCall _).bind fun _ _ w₄ hw₄ => ?_
  subst hw₄
  refine (calls_call _ rfl).weaken (fun _ _ w' h => ?_) fun _ w' h => h
  rw [h.2]

lemma onlyBlocks_insert {w₁ : InitState} {b : L1Block} (hn : OnlyBlocks w.committed)
    (hi : w.committed.blocks.insert b = some blocks)
    (hw₁ : w₁.committed = { w.committed with blocks }) :
    OnlyBlocks w₁.committed ∧
    ∀ a, a ∈ w₁.committed.blocks.rows ↔ a = b ∨ a ∈ w.committed.blocks.rows := by
  obtain ⟨old, ho⟩ := hn
  refine ⟨⟨blocks, by rw [hw₁, ho]⟩, fun a => ?_⟩
  rw [hw₁]
  exact mem_insert hi

/-- Blocks in order, after those that are stored, are committed one after the other. -/
lemma calls_blocks {bs : List PreGenesisBlock} (bound : ℕ) (ho : OnlyBlocks w.committed)
    (hs : bs.Pairwise fun a b => a.block.key < b.block.key) (hn : ∀ a ∈ w.committed.blocks.rows,
    ∀ b ∈ bs, a.key < b.block.key) (hb : ∀ a ∈ w.committed.blocks.rows, a.key < bound)
    (hbn : ∀ b ∈ bs, b.block.key < bound) : Calls fs (bs.flatMap blockPoints)
    (forEach (processBlock fs) bs) w (fun _ w' => OnlyBlocks w'.committed ∧
    (w'.committed.blocks.rows ≠ [] ↔ bs ≠ [] ∨ w.committed.blocks.rows ≠ []) ∧
    ∀ a ∈ w'.committed.blocks.rows, a.key < bound) (fun w' => OnlyBlocks w'.committed ∧
    (w.committed.blocks.rows ≠ [] → w'.committed.blocks.rows ≠ [])) := by
  induction bs generalizing w with
  | nil => exact .ret ⟨ho, by simp, hb⟩
  | cons b bs ih =>
    rw [flatMap_cons]
    have hnn : w.committed.blocks.find? b.block.key = none :=
      find?_eq_none_iff.mpr fun a ha => (hn a ha b mem_cons_self).ne
    have hi := insert_of_new hnn
    obtain ⟨hf, hs⟩ := pairwise_cons.mp hs
    have hl := (calls_processBlock fs hi).weaken (fun _ _ _ h => h) fun _ w' (h : w' = w) =>
        (show OnlyBlocks w'.committed ∧
          (w.committed.blocks.rows ≠ [] → w'.committed.blocks.rows ≠ []) by
            subst h
            exact ⟨ho, id⟩)
    refine hl.bind fun _ _ w₁ hw₁ => ?_
    obtain ⟨honly₁, hm⟩ := onlyBlocks_insert ho hi hw₁
    have hsm : w₁.committed.blocks.rows ≠ [] := ne_nil_of_mem ((hm b.block).mpr (.inl rfl))
    refine (ih honly₁ hs ?_ ?_ fun c hc => hbn c (mem_cons_of_mem b hc)).weaken
      (fun _ _ w' h => ⟨h.1, ?_, h.2.2⟩) fun _ w' h => ⟨h.1, fun _ => h.2 hsm⟩
    · intro a ha c hc
      rcases (hm a).mp ha with rfl | ha
      · exact hf c hc
      · exact hn a ha c (mem_cons_of_mem b hc)
    · intro a ha
      rcases (hm a).mp ha with rfl | ha
      · exact hbn b mem_cons_self
      · exact hb a ha
    · simp [h.2.1, hsm]

lemma firstStored_cons (rg : ℕ × ℕ) (rest : List (ℕ × ℕ)) : FirstStored env fs (rg :: rest) ↔
    FirstStored env fs [rg] ∨ env.l1.rollupInfo rg.1 rg.2 = [] ∧ fs (.rollupInfo rg.1) = false ∧ fs
    (.finalized rg.1) = false ∧ FirstStored env fs rest := by
  cases hb : env.l1.rollupInfo rg.1 rg.2 with
  | _ => simp [FirstStored, hb]

lemma Left.same {stored : Prop} (ho : OnlyBlocks w.committed) (h : ¬ stored) : Left stored w w :=
  ⟨ho, by simp [h]⟩

variable {rg : ℕ × ℕ}

lemma calls_rangeBlocks {bound : ℕ} (ho : OnlyBlocks w.committed)
    (hw : ∀ a ∈ w.committed.blocks.rows, a.key < rg.1)
    (hbn : ∀ a ∈ w.committed.blocks.rows, a.key < bound) (hr : rg.2 < bound)
    (hif : fs (.rollupInfo rg.1) = false)
    (hfn : fs (.finalized rg.1) = false) :
    Calls fs ((env.l1.rollupInfo rg.1 rg.2).flatMap blockPoints)
    (forEach (processBlock fs) (env.l1.rollupInfo rg.1 rg.2)) w
    (fun _ w' => Left (FirstStored env fs [rg]) w w' ∧
    ∀ a ∈ w'.committed.blocks.rows, a.key < bound)
    (fun w' => Left (FirstStored env fs [rg]) w w') := by
  have hi := env.l1.inRange rg.1 rg.2
  have hs := env.l1.sorted rg.1 rg.2
  rcases hb : env.l1.rollupInfo rg.1 rg.2 with _ | ⟨b, bs⟩
  · have hn : ¬ FirstStored env fs [rg] := by simp [FirstStored, hb]
    exact .ret ⟨.same ho hn, hbn⟩
  rw [hb] at hi hs
  have hst : FirstStored env fs [rg] ↔ ∀ p ∈ blockPoints b, fs p = false := by
    simp [FirstStored, hb, hif, hfn]
  have hn : w.committed.blocks.find? b.block.key = none := by
    refine find?_eq_none_iff.mpr fun a ha => ?_
    exact ((hw a ha).trans_le (hi b mem_cons_self).1).ne
  have his := insert_of_new hn
  obtain ⟨hf, hs⟩ := pairwise_cons.mp hs
  have hk : Calls fs (blockPoints b) (processBlock fs b) w
      (fun _ w' => w'.committed = { w.committed with
      blocks := ⟨_, w.committed.blocks.sorted_insertRow b.block⟩ })
      (fun w' => Left (FirstStored env fs [rg]) w w') := by
    refine (calls_processBlock fs his).weaken (fun _ _ _ h => h) fun hsm w' h => ?_
    subst h
    refine .same ho fun hal => ?_
    obtain ⟨p, hp, ht⟩ := hsm
    rw [hst.mp hal p hp] at ht
    cases ht
  rw [flatMap_cons]
  refine hk.bind fun hal _ w₁ hw₁ => ?_
  obtain ⟨honly₁, hm⟩ := onlyBlocks_insert ho his hw₁
  have hsm : w₁.committed.blocks.rows ≠ [] := ne_nil_of_mem ((hm b.block).mpr (.inl rfl))
  have hl : ∀ w' : InitState, OnlyBlocks w'.committed → w'.committed.blocks.rows ≠ [] →
      Left (FirstStored env fs [rg]) w w' := fun w' hol hso =>
    ⟨hol, by simp [hso, hst.mpr hal]⟩
  refine (calls_blocks bound honly₁ hs ?_ ?_ ?_).weaken (fun _ _ w' h => ⟨hl w' h.1 (h.2.1.mpr (.inr
    hsm)), h.2.2⟩) fun _ w' h => hl w' h.1 (h.2 hsm)
  · intro a ha c hc
    rcases (hm a).mp ha with rfl | ha
    · exact hf c hc
    · exact (hw a ha).trans_le (hi c (mem_cons_of_mem b hc)).1
  · intro a ha
    rcases (hm a).mp ha with rfl | ha
    · exact (hi b mem_cons_self).2.trans_lt hr
    · exact hbn a ha
  · exact fun c hc => (hi c (mem_cons_of_mem b hc)).2.trans_lt hr

lemma calls_processRange (bound : ℕ) (ho : OnlyBlocks w.committed) (hn :
    ∀ a ∈ w.committed.blocks.rows, a.key < rg.1) (hb : ∀ a ∈ w.committed.blocks.rows, a.key < bound)
    (hr : rg.2 < bound) : Calls fs (rangePoints env rg)
    (processRange env fs rg) w (fun _ w' => Left (FirstStored env fs [rg]) w w' ∧
    ∀ a ∈ w'.committed.blocks.rows, a.key < bound)
    (fun w' => Left (FirstStored env fs [rg]) w w') := by
  have hc : ∀ p, (p = .rollupInfo rg.1 ∨ p = .finalized rg.1) → Calls fs [p] (plainCall fs p) w (fun
      _ w' => w' = w) (fun w' => Left (FirstStored env fs [rg]) w w') := by
    intro p hp
    refine (calls_plainCall p).weaken (fun _ _ _ h => h) fun hs w' h => ?_
    subst h
    refine .same ho fun ha => ?_
    obtain ⟨q, hq, ht⟩ := hs
    obtain rfl := mem_singleton.mp hq
    rcases hp with rfl | rfl
    · rw [ha.1] at ht
      cases ht
    · rw [ha.2.1] at ht
      cases ht
  refine (hc _ (.inl rfl)).bind fun hi _ w₁ hw₁ => ?_
  subst hw₁
  refine (hc _ (.inr rfl)).bind fun hf _ w₂ hw₂ => ?_
  subst hw₂
  exact calls_rangeBlocks ho hn hb hr (hi _ mem_cons_self) (hf _ mem_cons_self)

lemma Left.cons {rest : List (ℕ × ℕ)} {w₁ w' : InitState} (hi : fs (.rollupInfo rg.1) = false)
    (hf : fs (.finalized rg.1) = false) (hs : Left (FirstStored env fs [rg]) w w₁)
    (hb : env.l1.rollupInfo rg.1 rg.2 ≠ [] → FirstStored env fs [rg])
    (hr : Left (FirstStored env fs rest) w₁ w') : Left (FirstStored env fs (rg :: rest)) w w' := by
  refine ⟨hr.1, ?_⟩
  rw [hr.2, hs.2, firstStored_cons rg rest]
  constructor
  · rintro (hsto | hsto | hold)
    · by_cases hn : env.l1.rollupInfo rg.1 rg.2 = []
      · exact .inl (.inr ⟨hn, hi, hf, hsto⟩)
      · exact .inl (.inl (hb hn))
    · exact .inl (.inl hsto)
    · exact .inr hold
  · rintro ((hsto | ⟨-, -, -, hsto⟩) | hold)
    · exact .inr (.inl hsto)
    · exact .inl hsto
    · exact .inr (.inr hold)

lemma firstStored_cons_of_fails {rest : List (ℕ × ℕ)} (h : ∃ p ∈ rangePoints env rg, fs p = true) :
    FirstStored env fs (rg :: rest) ↔ FirstStored env fs [rg] := by
  rw [firstStored_cons rg rest]
  refine ⟨?_, .inl⟩
  rintro (hsto | ⟨hnil, hinfo, hfinal, -⟩)
  · exact hsto
  obtain ⟨p, hp, ht⟩ := h
  rw [rangePoints, hnil] at hp
  simp only [flatMap_nil, append_nil, cons_append, nil_append,
    mem_cons, not_mem_nil, or_false] at hp
  rcases hp with rfl | rfl
  · exact absurd ht (by simp [hinfo])
  · exact absurd ht (by simp [hfinal])

lemma firstStored_of_calls (h : ∀ p ∈ rangePoints env rg, fs p = false)
    (hl : env.l1.rollupInfo rg.1 rg.2 ≠ []) : FirstStored env fs [rg] := by
  have hi : fs (.rollupInfo rg.1) = false := h _ (by simp [rangePoints])
  have hf : fs (.finalized rg.1) = false := h _ (by simp [rangePoints])
  obtain ⟨b, bs, hb⟩ := exists_cons_of_ne_nil hl
  simp only [FirstStored, hb]
  refine ⟨hi, hf, fun p hp => h p ?_⟩
  rw [rangePoints, hb, flatMap_cons]
  simp [hp]

lemma calls_ranges (env : InitEnv) (fs : Point → Bool) (fuel : ℕ) {i : ℕ}
    (ho : OnlyBlocks w.committed) (hn : ∀ a ∈ w.committed.blocks.rows, a.key < i)
    (hb : ∀ a ∈ w.committed.blocks.rows, a.key < env.genesis.rollupBlockNumber) :
    Calls fs ((ranges env fuel i).flatMap (rangePoints env))
    (forEach (processRange env fs) (ranges env fuel i)) w
    (fun _ w' => Left (FirstStored env fs (ranges env fuel i)) w w' ∧
    ∀ a ∈ w'.committed.blocks.rows, a.key < env.genesis.rollupBlockNumber)
    (fun w' => Left (FirstStored env fs (ranges env fuel i)) w w') := by
  induction fuel generalizing i w with
  | zero => exact .ret ⟨.same ho (by simp [ranges, FirstStored]), hb⟩
  | succ fuel ih =>
    have hp := env.genesis.positive
    have hh := env.chunkPositive
    rw [ranges]
    split_ifs with hl
    · rw [flatMap_cons]
      refine (calls_processRange _ ho hn hb (by dsimp only; omega)).bind
        fun _ _ w₁ hw₁ => ?_
      exact .ret hw₁
    rw [flatMap_cons]
    have hr : Calls fs (rangePoints env (i, i + env.syncChunkSize - 1)) (processRange env fs (i, i
        + env.syncChunkSize - 1)) w (fun _ w' => Left (FirstStored env fs [(i, i +
        env.syncChunkSize - 1)]) w w' ∧ ∀ a ∈ w'.committed.blocks.rows, a.key < i +
        env.syncChunkSize) (fun w' => Left (FirstStored env fs ((i, i + env.syncChunkSize - 1) ::
        ranges env fuel (i + env.syncChunkSize))) w w') := by
      refine (calls_processRange (i + env.syncChunkSize) ho hn
        (fun a ha => (hn a ha).trans (by omega)) (by dsimp only; omega)).weaken
        (fun _ _ _ h => h) fun hs w' h => ?_
      rw [Left, firstStored_cons_of_fails hs]
      exact h
    refine hr.bind fun hnn _ w₁ hw₁ => ?_
    have hi : fs (.rollupInfo i) = false := hnn _ (by simp [rangePoints])
    have hf : fs (.finalized i) = false := hnn _ (by simp [rangePoints])
    have hc : ∀ w', Left (FirstStored env fs (ranges env fuel (i + env.syncChunkSize))) w₁ w' →
        Left (FirstStored env fs ((i, i + env.syncChunkSize - 1) ::
        ranges env fuel (i + env.syncChunkSize))) w w' := fun w' h =>
      Left.cons hi hf hw₁.1 (firstStored_of_calls hnn) h
    refine (ih hw₁.1.1 hw₁.2 fun a ha => (hw₁.2 a ha).trans (by omega)).weaken
      (fun _ _ w' h => ⟨hc w' h.1, h.2⟩) fun _ w' h => hc w' h

/-- The batch of the genesis and a block are stored. -/
def GenesisSet (env : InitEnv) (db : Db) : Prop :=
  db.batches.find? 0 = some (genesisBatch env) ∧ db.blocks.last? ≠ none

/-- L1 and the configuration are right: without failures the genesis can be set. -/
structure Sound (env : InitEnv) : Prop where
  valid : env.l1.validGenBlockNumber = true
  header : env.l1.header.key = env.genesis.rollupBlockNumber
  root : env.genesisRoot = env.genesis.root
  block : ∃ b, sanityCheck env.l1.genesisInfo = some b ∧
    ∀ sequenced ∈ b.sequencedBatches.head?, ∀ blocks db,
      setGenesis env { emptyDb with blocks } = ok db →
      ∃ db', processSequenceBatches env.sync db sequenced.batches b.block.blockNumber
        b.block.receivedAt = ok db'

lemma inserted_of_lt {ρ : Type} {key : ρ → ℕ} {t : Table key} {r : ρ}
    (hl : ∀ a ∈ t.rows, key a < key r) : ∃ t', inserted t r = ok t' ∧ t'.rows = r :: t.rows := by
  obtain ⟨t', hi, hr⟩ := insert_of_lt hl
  refine ⟨t', ?_, hr⟩
  rw [inserted, hi]

lemma setGenesis_ok (hs : Sound env)
    (hf : ∀ a ∈ blocks.rows, a.key < env.genesis.rollupBlockNumber) :
    ∃ db, setGenesis env { emptyDb with blocks } = ok db ∧ GenesisSet env db := by
  obtain ⟨blocks', hblks, hl⟩ := inserted_of_lt (t := blocks) (r := env.l1.header)
    fun a ha => (hf a ha).trans_eq hs.header.symm
  obtain ⟨batches, hbs, hc⟩ := inserted_of_lt (t := emptyDb.batches) (r := genesisBatch env)
    fun _ h => by cases h
  obtain ⟨virtualBatches, hv, -⟩ := inserted_of_lt (t := emptyDb.virtualBatches)
    (r := genesisVirtualBatch env) fun _ h => by cases h
  obtain ⟨l2Blocks, hl2, -⟩ := inserted_of_lt (t := emptyDb.l2Blocks)
    (r := ⟨0, env.genesisBlockHash, env.genesisRoot, 0, []⟩) fun _ h => by cases h
  have hb : batches.find? 0 = some (genesisBatch env) := by
    refine find?_eq_some_iff.mpr ⟨?_, rfl⟩
    rw [hc]
    exact mem_cons_self
  have hk : blocks'.find? env.l1.header.key = some env.l1.header := by
    refine find?_mem ?_
    rw [hl]
    exact mem_cons_self
  refine ⟨{ emptyDb with blocks := blocks', batches, virtualBatches, l2Blocks }, ?_, hb, ?_⟩
  · rw [setGenesis]
    dsimp only
    rw [hblks, ok_bind, hbs, ok_bind, Db.addVirtualBatch]
    dsimp only
    have hba : batches.find? (genesisVirtualBatch env).key = some (genesisBatch env) := hb
    have ho : blocks'.find? (genesisVirtualBatch env).blockNumber.toNat = some env.l1.header := hk
    rw [hba, ho, required, ok_bind, required, ok_bind, hv, ok_bind, ok_bind]
    dsimp only
    rw [hl2, ok_bind]
  · rw [last?, hl]
    exact Option.some_ne_none _

variable {blockNumber : UInt64} {l1BlockTimestamp : ℤ}

lemma blocks_of_processSequencedBatch {env : SyncEnv} {db db' : Db} {sbt : SequencedBatch}
    (h : processSequencedBatch env blockNumber l1BlockTimestamp db sbt = ok db') :
    db'.blocks = db.blocks := by
  rw [processSequencedBatch] at h
  obtain ⟨p, -, h⟩ := ok_of_bind h
  obtain ⟨⟨db₁, tb, newRoot⟩, he, h⟩ := ok_of_bind h
  obtain ⟨db₂, hr, h⟩ := ok_of_bind h
  obtain ⟨_, -, rfl⟩ := addVirtualBatch_ok (mapErr_ok_iff.mp h)
  have hf : db₁.blocks = db.blocks := by
    have he := mapErr_ok_iff.mp he
    rw [executed] at he
    rcases ht : db.batches.find? p.batch.batchNumber.toNat with _ | trs
    · rw [ht] at he
      obtain ⟨⟨_, _, _⟩, hs, he⟩ := ok_of_bind he
      cases he
      exact (Db.closedFrom hs).blocks
    rw [ht] at he
    obtain ⟨⟨_, _⟩, hp, he⟩ := ok_of_bind he
    cases he
    rw [reprocess] at hp
    obtain ⟨_, -, hp⟩ := ok_of_bind hp
    obtain ⟨_, -, hp⟩ := ok_of_bind hp
    cases hp
    rfl
  have hr := mapErr_ok_iff.mp hr
  rw [restored] at hr
  split_ifs at hr
  · obtain ⟨⟨_, _, _⟩, hs, hr⟩ := ok_of_bind hr
    cases hr
    exact (Db.closedFrom hs).blocks.trans hf
  · cases hr
    exact hf

lemma genesisSet_processSequenceBatches {db db' : Db} {sequenced : SequencedBatches}
    (hs : GenesisSet env db)
    (h : processSequenceBatches env.sync db sequenced.batches blockNumber l1BlockTimestamp =
    ok db') : GenesisSet env db' := by
  have hro : ∀ bs : List SequencedBatch, (∀ b ∈ bs, 0 < b.batchNumber) → ∀ db db', GenesisSet env db
      → bs.foldlM (processSequencedBatch env.sync blockNumber l1BlockTimestamp) db = ok db' →
      GenesisSet env db' := by
    intro bs hp db db' hs hr
    induction bs generalizing db with
    | nil =>
      cases hr
      exact hs
    | cons b bs ih =>
      rw [foldlM_cons] at hr
      obtain ⟨db₁, hd, hr⟩ := ok_of_bind hr
      have ho : 0 < b.batchNumber := hp b mem_cons_self
      refine ih (fun a ha => hp a (mem_cons_of_mem b ha)) db₁ ⟨?_, ?_⟩ hr
      · rw [((round_of_ok ho hd).below 0 (UInt64.lt_iff_toNat_lt.mp ho)).1]
        exact hs.1
      · rw [blocks_of_processSequencedBatch hd]
        exact hs.2
  rcases hb : sequenced.batches with _ | ⟨first, rest⟩
  · rw [hb] at h
    cases h
    exact hs
  rw [hb, processSequenceBatches] at h
  obtain ⟨db₁, hr, h⟩ := ok_of_bind h
  obtain ⟨⟨_, rfl⟩, -⟩ := addSeq_ok (mapErr_ok_iff.mp h)
  have hp := sequenced.positive
  rw [hb] at hp
  exact hro _ hp db db₁ hs hr

lemma calls_processGenesisBlock (hsn : Sound env)
    (hg : setGenesis env { emptyDb with blocks } = ok w.tx) (ht : GenesisSet env w.tx) :
    Calls fs (genesisBlockPoints env) (processGenesisBlock env fs) w
    (fun _ w' => w'.committed = w.committed ∧ GenesisSet env w'.tx)
    (fun w' => w'.committed = w.committed) := by
  obtain ⟨b, hb, hi⟩ := hsn.block
  refine ((calls_plainCall _).weaken (fun _ _ _ h => h) fun _ _ h => congrArg _ h).bind
    fun _ _ w₁ hw₁ => ?_
  subst hw₁
  rw [hb]
  refine ((calls_plainCall _).weaken (fun _ _ _ h => h) fun _ _ h => congrArg _ h).bind
    fun _ _ w₂ hw₂ => ?_
  subst hw₂
  rcases hs : b.sequencedBatches with _ | ⟨sequenced, rest⟩
  · have hn : (some b).any (fun b => !b.sequencedBatches.isEmpty) = false := by simp [hs]
    rw [hn]
    exact .ret ⟨rfl, ht⟩
  have hm : (some b).any (fun b => !b.sequencedBatches.isEmpty) = true := by simp [hs]
  rw [hm]
  obtain ⟨db, hd⟩ := hi sequenced (by simp [hs]) blocks w₂.tx hg
  have hc : (do
      let db ← (processSequenceBatches env.sync w₂.tx sequenced.batches b.block.blockNumber
      b.block.receivedAt).mapErr InitError.sequence
      ok ({ w₂ with tx := db }, ())) = ok ({ w₂ with tx := db }, ()) := by
    rw [hd]
    rfl
  refine (calls_call _ hc).weaken (fun _ _ w' h => ?_) fun _ _ h => congrArg _ h
  rw [h.2]
  exact ⟨rfl, genesisSet_processSequenceBatches ht hd⟩

lemma calls_syncGenesis (hs : Sound env) (hc : w.committed = emptyDb)
    (hsr : fs .beginTx = false ∧ fs .getLastBlock = false) : Calls fs (genesisPoints env)
    (syncGenesis env fs) w (fun _ w' => GenesisSet env w'.tx ∧ Left (StoresBlock env fs) w w')
    (fun w' => Left (StoresBlock env fs) w w') := by
  have ho : OnlyBlocks w.committed := ⟨.empty, hc⟩
  have hw : w.committed.blocks.rows = [] := by
    rw [hc]
    rfl
  have hv : (if env.l1.validGenBlockNumber then ok (w, ()) else err .invalidGenesis :
      Outcome InitError (InitState × Unit)) = ok (w, ()) := if_pos hs.valid
  refine ((calls_call _ hv).weaken (fun _ _ _ h => h) fun hm w' h => ?_).bind fun hn _ w₁ hw₁ => ?_
  · subst h
    obtain ⟨p, hp, hf⟩ := hm
    obtain rfl := mem_singleton.mp hp
    refine .same ho fun hso => ?_
    rw [hso.2.2.1] at hf
    cases hf
  obtain rfl := hw₁.2
  have ht : FirstStored env fs (preGenesisRanges env) ↔ StoresBlock env fs := by
    rw [StoresBlock, hn _ mem_cons_self]
    simp [hsr]
  have he : ∀ n, ∀ a ∈ w₁.committed.blocks.rows, a.key < n := by
    rw [hw]
    nofun
  have hr := calls_ranges env fs env.genesis.rollupBlockNumber
    (i := env.genesis.rollupManagerBlockNumber) ho (he _) (he _)
  rw [← preGenesisRanges, ht] at hr
  refine hr.bind fun _ _ w₂ hw₂ => ?_
  obtain ⟨hl, hbf⟩ := hw₂
  obtain ⟨blocks, hb⟩ := hl.1
  have hk : ∀ w' : InitState, w'.committed = w₂.committed → Left (StoresBlock env fs) w₁ w' := by
    intro w' hw'
    rw [Left, hw']
    exact hl
  refine ((calls_plainCall _).weaken (fun _ _ _ h => h)
    fun _ _ h => hk _ (congrArg _ h)).bind fun _ _ w₃ hw₃ => ?_
  subst hw₃
  rw [hb] at hbf
  obtain ⟨db, hd, hse⟩ := setGenesis_ok hs hbf
  have hG : (do
      let db ← (setGenesis env w₃.committed).mapErr InitError.state
      ok ({ w₃ with tx := db }, ())) = ok ({ w₃ with tx := db }, ()) := by
    rw [hb, hd]
    rfl
  refine ((calls_call _ hG).weaken (fun _ _ _ h => h)
    fun _ _ h => hk _ (congrArg _ h)).bind fun _ _ w₄ hw₄ => ?_
  obtain rfl := hw₄.2
  refine ((calls_processGenesisBlock (w := { w₃ with tx := db }) hs hd hse).weaken
    (fun _ _ _ h => h)
    fun _ w' h => hk w' h).bind fun _ _ w₅ hw₅ => ?_
  have hrt : lift (fun w => if env.genesisRoot = env.genesis.root then ok (w, ())
      else err .wrongRoot) w₅ = (.ok (), w₅) := by
    rw [lift, if_pos hs.root]
  rw [Calls, bind_of_ok hrt]
  refine (calls_plainCall _).weaken (fun _ _ w' h => ?_) fun _ w' h => ?_
  · subst h
    exact ⟨hw₅.2, hk _ hw₅.1⟩
  · subst h
    exact hk _ hw₅.1

/-! ## Two calls of `Sync` -/

lemma GenesisSet.getLastBatchNumber {db : Db} (h : GenesisSet env db) :
    ∃ n, db.getLastBatchNumber = ok n := by
  rw [Db.getLastBatchNumber]
  cases hr : db.batches.rows with
  | nil =>
    have hm := (find?_eq_some_iff.mp h.1).1
    rw [hr] at hm
    cases hm
  | cons row rows =>
    rw [last?, hr]
    exact ⟨row.batchNumber, rfl⟩

lemma calls_end {E : InitState → Prop} (hs : GenesisSet env w.tx)
    (hE : ∀ w' : InitState, w'.committed = w.committed → E w') :
    Calls fs ([.lastBatchNumber] ++ ([.setInitSyncBatch] ++ [.commit]))
    (do
        let _ ← call fs .lastBatchNumber fun w => do
          let ibn ← w.tx.getLastBatchNumber.mapErr .state
          ok (w, ibn)
        plainCall fs .setInitSyncBatch
        call fs .commit fun w => ok ({ w with committed := w.tx }, ())) w
      (fun _ w' => GenesisSet env w'.committed) E := by
  obtain ⟨n, hn⟩ := hs.getLastBatchNumber
  have hm : (do
      let ibn ← w.tx.getLastBatchNumber.mapErr InitError.state
      ok (w, ibn)) = ok (w, n) := by
    rw [hn]
    rfl
  refine ((calls_call _ hm).weaken (fun _ _ _ h => h)
    fun _ _ h => hE _ (congrArg _ h)).bind fun _ _ w₁ hw₁ => ?_
  obtain rfl := hw₁.2
  refine ((calls_plainCall _).weaken (fun _ _ _ h => h)
    fun _ _ h => hE _ (congrArg _ h)).bind fun _ _ w₂ hw₂ => ?_
  subst hw₂
  refine (calls_call _ rfl).weaken (fun _ _ w' h => ?_) fun _ _ h => hE _ (congrArg _ h)
  rw [h.2]
  exact hs

lemma calls_sync (hsn : Sound env) (hc : w.committed = emptyDb) :
    Calls fs (points env) (sync env fs) w (fun _ w' => GenesisSet env w'.committed)
    (fun w' => Left (StoresBlock env fs) w w') := by
  have ho : OnlyBlocks w.committed := ⟨.empty, hc⟩
  have hfs : ∀ {p : Point}, (∃ q ∈ [p], fs q = true) → (StoresBlock env fs → fs p = false) →
      ∀ w' : InitState, w'.committed = w.committed → Left (StoresBlock env fs) w w' := by
    rintro p ⟨q, hq, hf⟩ hr w' hw'
    obtain rfl := mem_singleton.mp hq
    rw [Left, hw']
    refine Left.same ho fun ht => ?_
    rw [hr ht] at hf
    cases hf
  refine ((calls_call _ rfl).weaken (fun _ _ _ h => h) fun hs _ h => hfs hs (fun h => h.1) _
    (congrArg _ h)).bind fun hb _ w₁ hw₁ => ?_
  obtain rfl := hw₁.2
  refine ((calls_call (w := { w with tx := w.committed }) _ rfl).weaken (fun _ _ _ h => h)
    fun hs _ h => hfs hs (fun h => h.2.1) _ (by rw [h])).bind
    fun hl last w₂ hw₂ => ?_
  obtain ⟨rfl, rfl⟩ := hw₂
  have hn : w.committed.blocks.last?.isNone = true := by
    rw [hc]
    rfl
  dsimp only
  rw [hn, when, if_pos rfl]
  refine (calls_syncGenesis (w := { w with tx := w.committed }) hsn hc
    ⟨hb _ mem_cons_self, hl _ mem_cons_self⟩).bind fun _ _ w₃ hw₃ => ?_
  refine calls_end hw₃.1 fun w' hw' => ?_
  rw [Left, hw']
  exact hw₃.2

lemma sync_of_genesisSet (hs : GenesisSet env w.committed) :
    ∃ w', sync env (fun _ => false) w = (.ok (), w') ∧ GenesisSet env w'.committed := by
  have hc : Calls (fun _ => false) ([Point.beginTx] ++ ([.getLastBlock] ++ ([] ++
      ([.lastBatchNumber] ++ ([.setInitSyncBatch] ++ [.commit]))))) (sync env fun _ => false) w (fun
      _ w' => GenesisSet env w'.committed) (fun _ => True) := by
    refine ((calls_call _ rfl).weaken (fun _ _ _ h => h) fun _ _ _ => trivial).bind
      fun _ _ w₁ hw₁ => ?_
    obtain rfl := hw₁.2
    refine ((calls_call _ rfl).weaken (fun _ _ _ h => h) fun _ _ _ => trivial).bind
      fun _ last w₂ hw₂ => ?_
    obtain ⟨rfl, rfl⟩ := hw₂
    have hm : w.committed.blocks.last?.isNone = false := by
      simpa [Option.isNone_eq_false_iff, Option.isSome_iff_ne_none] using hs.2
    dsimp only
    rw [hm, when, if_neg Bool.false_ne_true]
    refine (Calls.ret (Q := fun _ w' => w' = { w with tx := w.committed }) rfl).bind
      fun _ _ w₃ hw₃ => ?_
    subst hw₃
    exact calls_end hs fun _ _ => trivial
  obtain ⟨_, w', hr, hw'⟩ := hc.1 fun _ _ => rfl
  exact ⟨w', hr, hw'⟩

lemma sync_of_onlyBlocks (ho : OnlyBlocks w.committed) (hr : w.committed.blocks.rows ≠ []) :
    (sync env (fun _ => false) w).1 = .error (.state .stateNotSynchronized) := by
  obtain ⟨blocks, hb⟩ := ho
  rw [hb] at hr
  obtain ⟨b, bs, hbs⟩ := exists_cons_of_ne_nil hr
  have hs : blocks.last? = some b := congrArg List.head? hbs
  obtain ⟨committed, tx⟩ := w
  subst hb
  have hg : call (fun _ => false) .beginTx
      (fun w : InitState => ok ({ w with tx := w.committed }, ()))
      ⟨{ emptyDb with blocks }, tx⟩ =
      (.ok (), ⟨{ emptyDb with blocks }, { emptyDb with blocks }⟩) := rfl
  have hl : call (fun _ => false) .getLastBlock (fun w : InitState => ok (w, w.tx.blocks.last?))
      ⟨{ emptyDb with blocks }, { emptyDb with blocks }⟩ =
      (.ok (some b), ⟨{ emptyDb with blocks }, { emptyDb with blocks }⟩) := by
    rw [← hs]
    rfl
  rw [sync, bind_of_ok hg, bind_of_ok hl]
  rfl

/-- After a call of `Sync` with failures, one without sets the genesis and reaches the main loop
exactly if the first one stored no block from before the rollup, or did not fail. -/
theorem sync_restarts_iff (hsound : Sound env) (fails : Point → Bool) (tx : Db) :
    (∃ w', sync env (fun _ => false) (sync env fails ⟨emptyDb, tx⟩).2 = (.ok (), w') ∧
    GenesisSet env w'.committed) ↔
    ¬ StoresBlock env fails ∨ ∀ p ∈ points env, fails p = false := by
  have hcl : Calls fails (points env) (sync env fails) ⟨emptyDb, tx⟩
      (fun _ w' => GenesisSet env w'.committed)
      (fun w' => Left (StoresBlock env fails) ⟨emptyDb, tx⟩ w') := calls_sync hsound rfl
  by_cases hsm : ∃ p ∈ points env, fails p = true
  · obtain ⟨e, w₁, hrn, hon, hlf⟩ := hcl.2 hsm
    have hnt : ¬ ∀ p ∈ points env, fails p = false := fun hnn => by
      obtain ⟨p, hp, ht⟩ := hsm
      rw [hnn p hp] at ht
      cases ht
    have hi : w₁.committed.blocks.rows ≠ [] ↔ StoresBlock env fails := by
      rw [hlf]
      exact or_iff_left fun h => h rfl
    rw [hrn, or_iff_left hnt, ← hi, not_not]
    constructor
    · rintro ⟨w', hlt, -⟩
      by_contra hrw
      have her : (sync env (fun _ => false) w₁).1 = .error (.state .stateNotSynchronized) :=
        sync_of_onlyBlocks hon hrw
      rw [hlt] at her
      cases her
    intro hrw
    obtain ⟨blocks, hb⟩ := hon
    have hem : blocks = .empty := by
      rw [hb] at hrw
      obtain ⟨rows, sorted⟩ := blocks
      cases hrw
      rfl
    have hcm : w₁.committed = emptyDb := by
      rw [hb, hem]
      rfl
    have hlt := @calls_sync env (fun _ => false) w₁ hsound hcm
    obtain ⟨_, w', hok, hst⟩ := hlt.1 fun _ _ => rfl
    exact ⟨w', hok, hst⟩
  · have hnn : ∀ p ∈ points env, fails p = false := fun p hp =>
      Bool.eq_false_iff.mpr fun ht => hsm ⟨p, hp, ht⟩
    obtain ⟨_, w₁, hrn, hst⟩ := hcl.1 hnn
    rw [hrn]
    exact iff_of_true (sync_of_genesisSet hst) (.inr hnn)

def oneEventL1 : L1 where
  validGenBlockNumber := true
  rollupInfo := fun first last =>
    if first ≤ 5 ∧ 5 ≤ last then [⟨⟨5, zeroHash, zeroHash, 1000⟩, [.l1InfoTree]⟩] else []
  inRange := by
    intro first last b hb
    split_ifs at hb with hrng
    · obtain rfl := mem_singleton.mp hb
      exact hrng
    · cases hb
  sorted := by
    intro first last
    split_ifs
    · exact pairwise_singleton _ _
    · exact List.Pairwise.nil
  header := ⟨9, zeroHash, zeroHash, 2000⟩
  genesisInfo := [⟨⟨9, zeroHash, zeroHash, 2000⟩, [.forkIDs], []⟩]

/-- A rollup in block 9, whose manager is there since block 3. -/
def oneEventEnv : InitEnv where
  genesis := ⟨9, 3, zeroHash, by decide⟩
  syncChunkSize := 100
  chunkPositive := by decide
  l1 := oneEventL1
  genesisRoot := zeroHash
  genesisBlockHash := zeroHash
  sync := quietEnv

/-- The header of the rollup's block cannot be read once block 5 is stored: the next call fails
without a failure. -/
theorem sync_stuck_after_header : (sync oneEventEnv (fun _ => false)
    (sync oneEventEnv (fun p => p = .header) ⟨emptyDb, emptyDb⟩).2).1.toOption = none ∧
    (sync oneEventEnv (fun _ => false) ⟨emptyDb, emptyDb⟩).1.toOption = some () := by
  decide +kernel

lemma sound_oneEventEnv : Sound oneEventEnv := ⟨rfl, rfl, rfl, _, rfl, nofun⟩

theorem sync_restarts_iff_oneEvent : Sound oneEventEnv ∧ ((∃ w', sync oneEventEnv (fun _ => false)
    (sync oneEventEnv (fun p => p = .header) ⟨emptyDb, emptyDb⟩).2 = (.ok (), w') ∧
    GenesisSet oneEventEnv w'.committed) ↔
    ¬ StoresBlock oneEventEnv (fun p => p = .header) ∨
    ∀ p ∈ points oneEventEnv, decide (p = .header) = false) :=
  ⟨sound_oneEventEnv, sync_restarts_iff sound_oneEventEnv _ _⟩

end EthdaNode.Synchronizer.InitialSync
