import EthdaNode.Sequencer.TxTracker

/-!
# The data availability committee

The backend caches the members of the committee and a cursor into them. A lookup asks the members
in a circle from the cursor on, until one of them has the data of the hash.
-/

namespace EthdaNode.Availability

open Go Go.Outcome State Sequencer List Nat

inductive DataError where
  | retrievalArgs
  | batchParameters
  | missingBatchData (number : UInt64) (hash : Hash)
  | missingAnswers (expected actual : ℕ)
  | unexpectedHash (number : UInt64) (expected actual : Hash)
  | loadingCommittee
  | noMemberHasData
  | tooManyFailed
  | state
  | rpc
  | notRetrieved
  deriving DecidableEq

structure DataCommitteeMember where
  addr : Address
  url : String
  deriving DecidableEq

/-- `DataCommitteeBackend`, once `Init` has succeeded. A cursor of -1 is `none`. -/
structure DataCommitteeBackend where
  committeeMembers : List DataCommitteeMember
  selectedCommitteeMember : Option ℕ
  valid : match selectedCommitteeMember with
    | none => committeeMembers = []
    | some i => i < committeeMembers.length

/-- What a lookup meets: the answers of the cached members, and for `Init` the current committee and
the member drawn from it. -/
structure Lookup where
  getOffChainData : ℕ → Option (List UInt8)
  currentCommittee : Option (List DataCommitteeMember)
  drawn : ℕ

def DataCommitteeBackend.init (committeeMembers : List DataCommitteeMember) (drawn : ℕ) :
    DataCommitteeBackend :=
  if h : committeeMembers = [] then ⟨committeeMembers, none, h⟩
  else ⟨committeeMembers, some (drawn % committeeMembers.length), mod_lt _ (length_pos_iff.mpr h)⟩

/-! ## The walk over the members -/

section
variable (keccak : List UInt8 → Hash) (answers : ℕ → Option (List UInt8)) (hash : Hash)

/-- The answer of a member, if it is the data of the hash. -/
def rightData (i : ℕ) : Option (List UInt8) := (answers i).filter fun data => keccak data = hash

/-- The loop of `GetBatchL2Data` over `n` members: those asked, in order, and the one with the data.
The first argument bounds the iterations. -/
def walk (n intialMember : ℕ) : ℕ → ℕ → Outcome DataError (List ℕ × Option (ℕ × List UInt8))
  | 0, _ => hang
  | fuel + 1, selected =>
    match rightData keccak answers hash selected with
    | some data => ok ([selected], some (selected, data))
    | none =>
      if (selected + 1) % n = intialMember then ok ([selected], none)
      else do
        let (asked, found) ← walk n intialMember fuel ((selected + 1) % n)
        ok (selected :: asked, found)

def askInTurn : List ℕ → List ℕ × Option (ℕ × List UInt8)
  | [] => ([], none)
  | i :: rest =>
    match rightData keccak answers hash i with
    | some data => ([i], some (i, data))
    | none => (i :: (askInTurn rest).1, (askInTurn rest).2)

/-- The members from a cursor on, in a circle, without the first `k`. -/
def circle (n intialMember k : ℕ) : List ℕ :=
  (List.range' k (n - k)).map fun j => (intialMember + j) % n

variable {keccak answers hash} {n i : ℕ}

lemma circle_eq_cons {k : ℕ} (hk : k < n) : circle n i k = (i + k) % n :: circle n i (k + 1) := by
  obtain ⟨m, hm⟩ : ∃ m, n - k = m + 1 := ⟨n - k - 1, by omega⟩
  have hr : n - (k + 1) = m := by omega
  rw [circle, circle, hm, hr]
  rfl

lemma add_mod_eq_self_iff {k : ℕ} (hi : i < n) (hk : k < n) : (i + k + 1) % n = i ↔ k + 1 = n := by
  constructor
  · intro h
    by_contra hne
    rcases lt_or_ge (i + k + 1) n with hlt | hge
    · rw [mod_eq_of_lt hlt] at h
      omega
    · rw [mod_eq_sub_mod hge, mod_eq_of_lt (by omega)] at h
      omega
  · intro h
    rw [add_assoc, h, add_mod_right, mod_eq_of_lt hi]

lemma walk_eq {k : ℕ} (hi : i < n) (hk : k < n) : walk keccak answers hash n i (n - k)
    ((i + k) % n) = ok (askInTurn keccak answers hash (circle n i k)) := by
  induction hf : n - k generalizing k with
  | zero => omega
  | succ fuel ih =>
    rw [walk, circle_eq_cons hk, askInTurn]
    cases rightData keccak answers hash ((i + k) % n) with
    | some data => rfl
    | none =>
      dsimp only
      rw [mod_add_mod]
      by_cases hl : k + 1 = n
      · have he : circle n i (k + 1) = [] := by
          rw [circle, hl, Nat.sub_self]
          rfl
        rw [if_pos ((add_mod_eq_self_iff hi hk).mpr hl), he, askInTurn]
      · rw [if_neg (mt (add_mod_eq_self_iff hi hk).mp hl), add_assoc, ih (by omega) (by omega)]
        rfl

lemma walk_eq_askInTurn (hi : i < n) :
    walk keccak answers hash n i n i = ok (askInTurn keccak answers hash (circle n i 0)) := by
  have hw : walk keccak answers hash n i (n - 0) ((i + 0) % n) = _ := walk_eq hi (zero_lt_of_lt hi)
  rwa [Nat.sub_zero, Nat.add_zero, Nat.mod_eq_of_lt hi] at hw

lemma mem_circle {j : ℕ} (hi : i < n) (hj : j < n) : j ∈ circle n i 0 := by
  refine mem_map.mpr ⟨(n + j - i) % n, mem_range'_1.mpr ⟨zero_le _, ?_⟩, ?_⟩
  · rw [Nat.zero_add, Nat.sub_zero]
    exact Nat.mod_lt _ (by omega)
  · rw [add_mod_mod, show i + (n + j - i) = j + n by omega, add_mod_right,
      mod_eq_of_lt hj]

lemma nodup_circle : (circle n i 0).Nodup := by
  refine Nodup.map_on (fun a ha b hb hab => ?_) nodup_range'
  rw [mem_range'_1] at ha hb
  have hm : a % n = b % n := Nat.ModEq.add_left_cancel' i hab
  rwa [mod_eq_of_lt (by omega), mod_eq_of_lt (by omega)] at hm

lemma askInTurn_prefix (members : List ℕ) :
    (askInTurn keccak answers hash members).1 <+: members := by
  induction members with
  | nil => exact prefix_rfl
  | cons j rest ih =>
    rw [askInTurn]
    cases rightData keccak answers hash j with
    | some data => exact prefix_append [j] rest
    | none => exact (prefix_cons_inj j).mpr ih

lemma askInTurn_found (members : List ℕ) : match (askInTurn keccak answers hash members).2 with
    | some (j, data) => j ∈ members ∧ rightData keccak answers hash j = some data
    | none => ∀ j ∈ members, rightData keccak answers hash j = none := by
  induction members with
  | nil => exact nofun
  | cons j rest ih =>
    rw [askInTurn]
    cases hr : rightData keccak answers hash j with
    | some data => exact ⟨mem_cons_self, hr⟩
    | none =>
      dsimp only
      generalize (askInTurn keccak answers hash rest).2 = found at ih
      cases found with
      | some found => exact ⟨mem_cons_of_mem _ ih.1, ih.2⟩
      | none => exact forall_mem_cons.mpr ⟨hr, ih⟩
end

variable (keccak : List UInt8 → Hash) (d : DataCommitteeBackend)

/-- The end of a lookup without data: the committee is loaded again. -/
def DataCommitteeBackend.reload (env : Lookup) : DataError × DataCommitteeBackend :=
  match env.currentCommittee with
  | none => (.loadingCommittee, d)
  | some members => (.noMemberHasData, .init members env.drawn)

/-- `GetBatchL2Data` of the backend: the result, the members asked, and the backend afterwards,
whose cursor stays at the member with the data. -/
def DataCommitteeBackend.getBatchL2Data (hash : Hash) (env : Lookup) :
    Outcome DataError (List UInt8) × List ℕ × DataCommitteeBackend :=
  match h : d.selectedCommitteeMember with
  | none => (err (d.reload env).1, [], (d.reload env).2)
  | some intialMember =>
    let n := d.committeeMembers.length
    match walk keccak env.getOffChainData hash n intialMember n intialMember with
    | ok (asked, some (selected, data)) =>
      -- `selected` is a position, the remainder is taken for the proof only
      (ok data, asked, ⟨d.committeeMembers, some (selected % n),
        mod_lt _ (zero_lt_of_lt (h ▸ d.valid))⟩)
    | ok (asked, none) => (err (d.reload env).1, asked, (d.reload env).2)
    | _ => (hang, [], d)

def DataCommitteeBackend.getSequence (d : DataCommitteeBackend) :
    List Hash → (ℕ → Lookup) → Outcome DataError (List (List UInt8))
  | [], _ => ok []
  | hash :: hashes, env => do
      let found := d.getBatchL2Data keccak hash (env 0)
      let data ← found.1
      let batchData ← found.2.2.getSequence hashes fun k => env (k + 1)
      ok (data :: batchData)

variable {keccak} {d : DataCommitteeBackend} {hash : Hash} {env : Lookup}

/-- What a lookup does: nobody is asked twice, and the data of a member that has it is found. -/
structure DataCommitteeBackend.Found (keccak : List UInt8 → Hash) (d : DataCommitteeBackend)
    (hash : Hash) (env : Lookup) (result : Outcome DataError (List UInt8)) (asked : List ℕ) :
    Prop where
  sound : ∀ data, result = ok data → keccak data = hash
  returns : result.Returns
  nodup : asked.Nodup
  members : ∀ j ∈ asked, j < d.committeeMembers.length
  complete : ∀ j < d.committeeMembers.length,
    (rightData keccak env.getOffChainData hash j).isSome → ∃ data, result = ok data

lemma keccak_of_rightData {answers : ℕ → Option (List UInt8)} {j : ℕ} {data : List UInt8}
    (h : rightData keccak answers hash j = some data) : keccak data = hash := by
  rw [rightData, Option.filter_eq_some_iff] at h
  exact of_decide_eq_true h.2

lemma lt_of_mem_circle {n i j : ℕ} (hi : i < n) (hj : j ∈ circle n i 0) : j < n := by
  obtain ⟨k, -, rfl⟩ := mem_map.mp hj
  exact mod_lt _ (by omega)

lemma DataCommitteeBackend.getBatchL2Data_found : Found keccak d hash env
    (d.getBatchL2Data keccak hash env).1 (d.getBatchL2Data keccak hash env).2.1 := by
  have hv := d.valid
  rw [getBatchL2Data]
  split
  next hnn =>
    rw [hnn] at hv
    dsimp only at hv
    refine ⟨nofun, returns_err _, nodup_nil, nofun, fun j hj => ?_⟩
    rw [hv] at hj
    exact absurd hj (not_lt_zero j)
  next i hi =>
    rw [hi] at hv
    dsimp only at hv
    dsimp only
    rw [walk_eq_askInTurn hv]
    generalize hw : askInTurn keccak env.getOffChainData hash
      (circle d.committeeMembers.length i 0) = walked
    have hin : walked.1 <+: _ := hw ▸ askInTurn_prefix _
    have hf := @askInTurn_found keccak env.getOffChainData hash (circle d.committeeMembers.length i
        0)
    rw [hw] at hf
    obtain ⟨asked, found⟩ := walked
    have hnd : asked.Nodup := nodup_circle.sublist hin.sublist
    have hm : ∀ j ∈ asked, j < d.committeeMembers.length := fun j hj =>
      lt_of_mem_circle hv (hin.subset hj)
    cases found with
    | some found =>
      refine ⟨fun data hd => ?_, returns_ok _, hnd, hm, fun _ _ _ => ⟨_, rfl⟩⟩
      cases hd
      exact keccak_of_rightData hf.2
    | none =>
      refine ⟨nofun, returns_err _, hnd, hm, fun j hj hr => ?_⟩
      rw [hf j (mem_circle hv hj)] at hr
      cases hr

lemma DataCommitteeBackend.keccak_of_getSeq {hah : List Hash} {env : ℕ → Lookup}
    {bd : List (List UInt8)} (h : d.getSequence keccak hah env = ok bd) : bd.map keccak = hah := by
  induction hah generalizing d env bd with
  | nil =>
    cases h
    rfl
  | cons hash hah ih =>
    obtain ⟨data, hd, h⟩ := ok_of_bind h
    obtain ⟨rest, hr, h⟩ := ok_of_bind h
    cases h
    rw [map_cons, ih hr, getBatchL2Data_found.sound data hd]

end EthdaNode.Availability
