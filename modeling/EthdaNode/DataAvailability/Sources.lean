import EthdaNode.DataAvailability.DataCommittee

/-!
# The sources of the batch data

`GetBatchL2Data` looks for the data of a list of batches in the sources of a priority list: the
local state, the trusted node and the data committee. None of them is trusted, the data is checked
against the hashes.
-/

namespace EthdaNode.Availability

open Go Go.Outcome State Sequencer List

/-- `DataSourcePriority`: the three sources, and any other name. -/
inductive DataSourcePriority where
  | localNode
  | trusted
  | external
  | invalid
  deriving DecidableEq

def defaultPriority : List DataSourcePriority := [.localNode, .trusted, .external]

structure DataAvailability where
  isTrustedSequencer : Bool
  backend : DataCommitteeBackend
  dataSourcePriority : List DataSourcePriority

/-- What the sources answer. A batch of the trusted node may be missing in its answer. -/
structure Answers where
  getBatchL2DataByNumbers : Option (UInt64 → Option (List UInt8))
  batchesByNumbers : Option (List (Option (List UInt8)))
  lookups : ℕ → Lookup

variable (keccak kc : List UInt8 → Hash)

def checkBatch (batchData : UInt64 → Option (List UInt8)) (batch : UInt64 × Hash) :
    Outcome DataError (List UInt8) :=
  match batchData batch.1 with
  | none => err (.missingBatchData batch.1 batch.2)
  | some data =>
    if keccak data ≠ batch.2 then err (.unexpectedHash batch.1 batch.2 (keccak data))
    else ok data

def checkBatches (batchNumbers : List UInt64) (expectedHashes : List Hash)
    (batchData : UInt64 → Option (List UInt8)) : Outcome DataError (List (List UInt8)) :=
  if batchNumbers.length ≠ expectedHashes.length then err .batchParameters
  else (batchNumbers.zip expectedHashes).mapM (checkBatch keccak batchData)

def rpcBatch (result : UInt64 → Option (List UInt8))
    (batch : (UInt64 × Hash) × Option (List UInt8)) :
    Outcome DataError (UInt64 → Option (List UInt8)) :=
  match batch with
  | (_, none) => panic
  | ((number, expected), some data) =>
    if expected ≠ keccak data then err (.unexpectedHash number expected (keccak data))
    else ok (Function.update result number (some data))

def rpcData (batchNums : List UInt64) (expectedHashes : List Hash)
    (batchData : Option (List (Option (List UInt8)))) : Outcome DataError (List (List UInt8)) :=
  if batchNums.length ≠ expectedHashes.length then err .retrievalArgs
  else match batchData with
  | none => err .rpc
  | some batchData =>
    if batchData.length ≠ batchNums.length then
      err (.missingAnswers batchNums.length batchData.length)
    else do
      let result ← ((batchNums.zip expectedHashes).zip batchData).foldlM (rpcBatch keccak)
        fun _ => none
      checkBatches keccak batchNums expectedHashes result

namespace DataAvailability

variable (d : DataAvailability) (batchNums ns : List UInt64) (batchHashes : List Hash)
  (source src : DataSourcePriority)

def fromSource (env : Answers) : Outcome DataError (List (List UInt8)) :=
  match source with
  | .localNode =>
    match env.getBatchL2DataByNumbers with
    | none => err .state
    | some localData => checkBatches keccak batchNums batchHashes localData
  | .trusted =>
    if d.isTrustedSequencer then err .notRetrieved
    else rpcData keccak batchNums batchHashes env.batchesByNumbers
  | .external => d.backend.getSequence keccak batchHashes env.lookups
  | .invalid => err .notRetrieved

/-- The search does not go on after an error of this source: a failed read of the local state, or
what the committee returns. -/
def endsSearch (env : Answers) : Bool :=
  match source with
  | .localNode => env.getBatchL2DataByNumbers.isNone
  | .external => true
  | _ => false

/-- The loop over the sources; the n-th one answers as `env n` says. -/
def search : List DataSourcePriority → (ℕ → Answers) → Outcome DataError (List (List UInt8))
  | [], _ => err .notRetrieved
  | source :: sources, env =>
    match d.fromSource keccak batchNums batchHashes source (env 0) with
    | err e =>
      if endsSearch source (env 0) then err e
      else search sources fun k => env (k + 1)
    | result => result

def getBatchL2Data (env : ℕ → Answers) : Outcome DataError (List (List UInt8)) :=
  if batchNums.length ≠ batchHashes.length then err .retrievalArgs
  else d.search keccak batchNums batchHashes d.dataSourcePriority env

end DataAvailability

/-! ## Soundness -/

variable {kc} {batchNums ns : List UInt64} {batchHashes : List Hash}
  {batchData : UInt64 → Option (List UInt8)}

lemma keccak_of_checkBatch {batch : UInt64 × Hash} {dt : List UInt8}
    (h : checkBatch kc batchData batch = ok dt) : kc dt = batch.2 := by
  rw [checkBatch] at h
  split at h
  next => cases h
  next =>
    split_ifs at h with hs
    cases h
    exact not_not.mp hs

lemma keccak_of_mapM_checkBatch {bs : List (UInt64 × Hash)} {res : List (List UInt8)}
    (h : bs.mapM (checkBatch kc batchData) = ok res) : res.map kc = bs.map Prod.snd := by
  induction bs generalizing res with
  | nil =>
    cases h
    rfl
  | cons batch bs ih =>
    rw [mapM_cons] at h
    obtain ⟨dt, hd, h⟩ := ok_of_bind h
    obtain ⟨rest, hr, h⟩ := ok_of_bind h
    cases h
    rw [map_cons, map_cons, ih hr, keccak_of_checkBatch hd]

lemma keccak_of_checkBatches {res : List (List UInt8)}
    (h : checkBatches kc ns batchHashes batchData = ok res) : res.map kc = batchHashes := by
  rw [checkBatches] at h
  split_ifs at h with hl
  rw [keccak_of_mapM_checkBatch h]
  exact map_snd_zip (not_not.mp hl).ge

namespace DataAvailability

variable {d : DataAvailability} {srcs : List DataSourcePriority} {env : ℕ → Answers}
  {dt : List (List UInt8)}

/-- Whatever a source answers, data that is taken from it has the hashes. -/
lemma keccak_of_fromSource {src : DataSourcePriority} {ans : Answers}
    (h : d.fromSource kc ns batchHashes src ans = ok dt) : dt.map kc = batchHashes := by
  cases src with
  | localNode =>
    rw [fromSource] at h
    split at h
    next => cases h
    next => exact keccak_of_checkBatches h
  | trusted =>
    rw [fromSource] at h
    split_ifs at h
    rw [rpcData.eq_def] at h
    split_ifs at h
    split at h
    next => cases h
    next =>
      split_ifs at h
      obtain ⟨result, -, h⟩ := ok_of_bind h
      exact keccak_of_checkBatches h
  | external => exact DataCommitteeBackend.keccak_of_getSeq h
  | invalid => cases h

lemma keccak_of_search (h : d.search kc ns batchHashes srcs env = ok dt) :
    dt.map kc = batchHashes := by
  induction srcs generalizing env with
  | nil => cases h
  | cons src srcs ih =>
    rw [search] at h
    cases hs : d.fromSource kc ns batchHashes src (env 0) with
    | ok result =>
      rw [hs] at h
      cases h
      exact keccak_of_fromSource hs
    | err e =>
      rw [hs] at h
      dsimp only at h
      split_ifs at h
      exact ih h
    | panic =>
      rw [hs] at h
      cases h
    | hang =>
      rw [hs] at h
      cases h

/-- Data that is returned is that of the requested hashes, in order. A lookup asks no member twice,
and it succeeds if a member has the data. -/
theorem getBatchL2Data_sound (keccak : List UInt8 → Hash) (d : DataAvailability)
    (batchNums : List UInt64) (batchHashes : List Hash) :
    (∀ env data, d.getBatchL2Data keccak batchNums batchHashes env = ok data →
    data.length = batchNums.length ∧ data.map keccak = batchHashes) ∧
    ∀ (backend : DataCommitteeBackend) (hash : Hash) (env : Lookup),
    (backend.getBatchL2Data keccak hash env).2.1.Nodup ∧
    (∀ j ∈ (backend.getBatchL2Data keccak hash env).2.1, j < backend.committeeMembers.length) ∧
    ∀ j < backend.committeeMembers.length, ∀ answer,
    env.getOffChainData j = some answer → keccak answer = hash →
    ∃ data, (backend.getBatchL2Data keccak hash env).1 = ok data ∧ keccak data = hash := by
  constructor
  · intro env data h
    rw [getBatchL2Data] at h
    split_ifs at h with hl
    have hk := keccak_of_search h
    refine ⟨?_, hk⟩
    rw [not_not.mp hl, ← hk, length_map]
  intro backend hash env
  have hf := @DataCommitteeBackend.getBatchL2Data_found keccak backend hash env
  refine ⟨hf.nodup, hf.members, fun j hj answer han hr => ?_⟩
  have hs : (rightData keccak env.getOffChainData hash j).isSome := by
    rw [rightData, han, Option.filter_some, decide_eq_true hr]
    rfl
  obtain ⟨data, hd⟩ := hf.complete j hj hs
  exact ⟨data, hd, hf.sound data hd⟩

def twoMembers : DataCommitteeBackend :=
  ⟨[⟨.zero, "dac"⟩, ⟨.zero, "dac2"⟩], some 0, Nat.two_pos⟩

/-- The second member and the trusted node have the data of a batch, the first member has other
data, and the local state cannot be read. -/
def memberAnswers : Answers where
  getBatchL2DataByNumbers := none
  batchesByNumbers := some [some [1]]
  lookups := fun _ => ⟨fun i => some [UInt8.ofNat i], none, 0⟩

/-- The hash of data is that of its first byte. -/
def firstByteHash (data : List UInt8) : Hash := plainHash (data.headD 0)

theorem getBatchL2Data_sound_secondMember :
    (DataAvailability.mk false twoMembers [.external]).getBatchL2Data firstByteHash [7]
      [plainHash 1] (fun _ => memberAnswers) = ok [[1]] ∧
    [[(1 : UInt8)]].map firstByteHash = [plainHash 1] ∧
    ∃ data, (twoMembers.getBatchL2Data firstByteHash (plainHash 1) (memberAnswers.lookups 0)).1 =
      ok data ∧ firstByteHash data = plainHash 1 := by
  have hok : (DataAvailability.mk false twoMembers [.external]).getBatchL2Data
      firstByteHash [7] [plainHash 1] (fun _ => memberAnswers) = ok [[1]] := by
    decide +kernel
  have hs := getBatchL2Data_sound firstByteHash
    (DataAvailability.mk false twoMembers [.external]) [7] [plainHash 1]
  refine ⟨hok, (hs.1 _ _ hok).2, ?_⟩
  exact (hs.2 twoMembers (plainHash 1) (memberAnswers.lookups 0)).2.2 1 Nat.one_lt_two [1] rfl rfl

/-- The k-th source can supply all the data. -/
def Supplies (keccak : List UInt8 → Hash) (d : DataAvailability) (batchNums : List UInt64)
    (batchHashes : List Hash) (sources : List DataSourcePriority) (env : ℕ → Answers) (k : ℕ) :
    Prop :=
  ∃ source data, sources[k]? = some source ∧
    d.fromSource keccak batchNums batchHashes source (env k) = ok data

/-- The search does not go beyond the k-th source, or a batch missing in the trusted node's answer
is read. -/
def Stops (keccak : List UInt8 → Hash) (d : DataAvailability) (batchNums : List UInt64)
    (batchHashes : List Hash) (sources : List DataSourcePriority) (env : ℕ → Answers) (k : ℕ) :
    Prop :=
  ∃ source, sources[k]? = some source ∧ (endsSearch source (env k) = true ∨
    ¬(d.fromSource keccak batchNums batchHashes source (env k)).Returns)

/-- The search returns the data of the first source that has it, if it comes to that source. -/
lemma search_ok_iff : (∃ dt, d.search kc ns batchHashes srcs env = ok dt) ↔ ∃ k, Supplies kc d ns
    batchHashes srcs env k ∧ ∀ i < k, ¬Stops kc d ns batchHashes srcs env i := by
  induction srcs generalizing env with
  | nil =>
    constructor
    · rintro ⟨dt, hd⟩
      cases hd
    · rintro ⟨k, ⟨src, dt, ho, -⟩, -⟩
      cases ho
  | cons src srcs ih =>
    rw [search]
    -- a source after the first one is reached if the first one neither supplies nor stops
    have hn : ∀ {x : Outcome DataError (List (List UInt8))},
        d.fromSource kc ns batchHashes src (env 0) = x → (∀ dt, x ≠ ok dt) →
        Stops kc d ns batchHashes (src :: srcs) env 0 →
        ¬∃ k, Supplies kc d ns batchHashes (src :: srcs) env k ∧
        ∀ i < k, ¬Stops kc d ns batchHashes (src :: srcs) env i := by
      rintro x hx hl hst ⟨k, hs, hc⟩
      cases k with
      | zero =>
        obtain ⟨src', dt, hr, hd⟩ := hs
        cases hr
        exact hl dt (hx.symm.trans hd)
      | succ k => exact hc 0 (Nat.succ_pos k) hst
    cases hf : d.fromSource kc ns batchHashes src (env 0) with
    | ok result =>
      exact iff_of_true ⟨result, rfl⟩
        ⟨0, ⟨src, result, rfl, hf⟩, fun i hi => absurd hi (Nat.not_lt_zero i)⟩
    | err e =>
      dsimp only
      by_cases he : endsSearch src (env 0) = true
      · rw [if_pos he]
        exact iff_of_false nofun (hn hf nofun ⟨src, rfl, .inl he⟩)
      rw [if_neg he, ih]
      have hg : ¬Stops kc d ns batchHashes (src :: srcs) env 0 := by
        rintro ⟨src', hr, hst⟩
        cases hr
        rw [hf] at hst
        exact hst.elim he fun ht => ht (returns_err e)
      constructor
      · rintro ⟨k, hs, hc⟩
        refine ⟨k + 1, hs, fun i hi => ?_⟩
        cases i with
        | zero => exact hg
        | succ i => exact hc i (Nat.lt_of_succ_lt_succ hi)
      rintro ⟨k, hs, hc⟩
      cases k with
      | zero =>
        obtain ⟨src', dt, hr, hd⟩ := hs
        cases hr
        rw [hf] at hd
        cases hd
      | succ k => exact ⟨k, hs, fun i hi => hc (i + 1) (Nat.succ_lt_succ hi)⟩
    | panic =>
      refine iff_of_false nofun (hn hf nofun ⟨src, rfl, .inr fun ht => ?_⟩)
      exact ht.1 hf
    | hang =>
      refine iff_of_false nofun (hn hf nofun ⟨src, rfl, .inr fun ht => ?_⟩)
      exact ht.2 hf

/-- Data that a source can supply is returned exactly if no source that ends the search comes before
the first such one. -/
theorem getBatchL2Data_supplied_iff (keccak : List UInt8 → Hash) (d : DataAvailability)
    (batchNums : List UInt64) (batchHashes : List Hash)
    (hlen : batchNums.length = batchHashes.length) (env : ℕ → Answers) :
    ((∃ k, Supplies keccak d batchNums batchHashes d.dataSourcePriority env k) →
    ∃ data, d.getBatchL2Data keccak batchNums batchHashes env = ok data ∧
    data.map keccak = batchHashes) ↔
    ((∃ k, Supplies keccak d batchNums batchHashes d.dataSourcePriority env k) →
    ∃ k, Supplies keccak d batchNums batchHashes d.dataSourcePriority env k ∧
    ∀ i < k, ¬Stops keccak d batchNums batchHashes d.dataSourcePriority env i) := by
  have hsr : d.getBatchL2Data keccak batchNums batchHashes env =
      d.search keccak batchNums batchHashes d.dataSourcePriority env :=
    if_neg (not_not_intro hlen)
  rw [hsr, ← search_ok_iff]
  constructor
  · intro h hsp
    obtain ⟨data, hd, -⟩ := h hsp
    exact ⟨data, hd⟩
  intro h hsp
  obtain ⟨data, hd⟩ := h hsp
  exact ⟨data, hd, keccak_of_search hd⟩

theorem getBatchL2Data_supplied_iff_local :
    ∃ data, (DataAvailability.mk false twoMembers [.trusted]).getBatchL2Data
    (fun _ => plainHash 1) [7] [plainHash 1] (fun _ => memberAnswers) = ok data ∧
    data.map (fun _ => plainHash 1) = [plainHash 1] := by
  have hs : Supplies (fun _ => plainHash 1) (DataAvailability.mk false twoMembers [.trusted])
      [7] [plainHash 1] [.trusted] (fun _ => memberAnswers) 0 := by
    refine ⟨.trusted, [[1]], rfl, ?_⟩
    decide +kernel
  exact (getBatchL2Data_supplied_iff (fun _ => plainHash 1)
    (DataAvailability.mk false twoMembers [.trusted]) [7] [plainHash 1] rfl
    fun _ => memberAnswers).mpr (fun _ => ⟨0, hs, nofun⟩) ⟨0, hs⟩

/-- The trusted node and the committee have the data, but a failed read of the local state ends the
search. -/
theorem localError_endsSearch :
    Supplies (fun _ => plainHash 1) (DataAvailability.mk false twoMembers defaultPriority) [7]
    [plainHash 1] defaultPriority (fun _ => memberAnswers) 1 ∧
    (DataAvailability.mk false twoMembers defaultPriority).getBatchL2Data (fun _ => plainHash 1)
    [7] [plainHash 1] (fun _ => memberAnswers) = err .state := by
  refine ⟨⟨.trusted, [[1]], rfl, ?_⟩, ?_⟩
  · decide +kernel
  · decide +kernel

end DataAvailability

end EthdaNode.Availability
