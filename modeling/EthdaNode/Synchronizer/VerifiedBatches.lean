import EthdaNode.State.Batches

/-!
# Verified batches

An event of L1 verifies all batches up to its number, and `processVerifyBatches` stores a row for
each of them that has none. Their count is an unsigned difference, so that a number below the
last one would add almost 2 ^ 64 rows; one of these is always refused. The mark of a row is set
for the events that are not those of the trusted aggregator.
-/

namespace EthdaNode.Synchronizer.VerifiedBatches

open State Sequencer UInt64 List

inductive EventOrder where
  | verifyBatch
  | trustedVerifyBatch
  deriving DecidableEq

/-- `etherman.VerifiedBatch`. -/
structure VerifyEvent where
  blockNumber : UInt64
  batchNumber : UInt64
  aggregator : Address
  stateRoot : Hash
  txHash : Hash

/-- A row of `state.verified_batch`. -/
structure VerifiedBatch extends VerifyEvent where
  isTrusted : Bool

def VerifiedBatch.key (b : VerifiedBatch) : ℕ := b.batchNumber.toNat

abbrev VerifiedTable := Table VerifiedBatch.key

/-- An event, with the batches that the state has when it comes. -/
structure Call where
  order : EventOrder
  event : VerifyEvent
  getBatchByNumber : UInt64 → Option Hash
  isVirtual : UInt64 → Bool

variable (c : Call) (t : VerifiedTable)

namespace Call

def isTrusted : Bool := c.order = .verifyBatch

/-- `AddVerifiedBatch`; a row refers to a virtual batch. -/
def addVerifiedBatch (row : VerifiedBatch) : Option VerifiedTable :=
  if c.isVirtual row.batchNumber then t.insert row else none

/-- The loop of `processVerifyBatches`: nothing while it needs more iterations, and no table if
a row is refused. -/
def addBatches (last nbatches : UInt64) : ℕ → UInt64 → VerifiedTable → Option (Option VerifiedTable)
  | 0, _, _ => none
  | fuel + 1, i, t =>
    if i ≤ nbatches then
      match c.addVerifiedBatch t ⟨{ c.event with batchNumber := last + i }, c.isTrusted⟩ with
      | none => some none
      | some t => addBatches last nbatches fuel (i + 1) t
    else some (some t)

def processVerifyBatches (fuel : ℕ) : Option (Option VerifiedTable) :=
  match t.last?, c.getBatchByNumber c.event.batchNumber with
  | some last, some stateRoot =>
    if stateRoot ≠ c.event.stateRoot then some none
    else c.addBatches last.batchNumber (c.event.batchNumber - last.batchNumber) fuel 1 t
  | _, _ => some none

/-- The table after the event; an error rolls it back. -/
def step : VerifiedTable := ((c.processVerifyBatches t (2 ^ 64)).join).getD t

/-- The event is about a batch after `n` that the state has with the same root, and all batches in
between are virtual. Their count is not the greatest number, which no index exceeds. -/
structure Extends (n : ℕ) : Prop where
  new : n < c.event.batchNumber.toNat
  count : c.event.batchNumber.toNat + 1 < n + 2 ^ 64
  root : c.getBatchByNumber c.event.batchNumber = some c.event.stateRoot
  virtual : ∀ k, n < k.toNat → k ≤ c.event.batchNumber → c.isVirtual k

end Call

/-! ## Contiguity -/

/-- The numbers of the rows are those up to `n`. -/
def UpTo (n : ℕ) : Prop := n < 2 ^ 64 ∧ ∀ k, (∃ row ∈ t.rows, row.key = k) ↔ k ≤ n

/-- What is owed for an event. -/
structure Keeps : Prop where
  terminates : ∃ result, c.processVerifyBatches t (2 ^ 64) = some result
  contiguous : ∃ n, UpTo (c.step t) n
  extends_only : ∀ n, UpTo t n → c.event.batchNumber.toNat ≤ n → c.step t = t
  trusted : ∀ row ∈ (c.step t).rows, row ∉ t.rows →
    (row.isTrusted = true ↔ c.order = .trustedVerifyBatch)

variable {c t} {n k : ℕ}

lemma UpTo.last_eq (h : UpTo t n) : ∃ row, t.last? = some row ∧ row.batchNumber.toNat = n := by
  obtain ⟨row, hr, hk⟩ := (h.2 n).mpr le_rfl
  refine ⟨row, Table.last?_eq_some_iff.mpr ⟨hr, fun b hb => ?_⟩, hk⟩
  rw [hk]
  exact (h.2 _).mp ⟨b, hb, rfl⟩

lemma UpTo.insert {t' : VerifiedTable} {row : VerifiedBatch} (h : UpTo t k)
    (ha : c.addVerifiedBatch t row = some t') (hw : row.key = (k + 1) % 2 ^ 64) :
    UpTo t' (k + 1) ∧ c.isVirtual row.batchNumber ∧ ∀ r ∈ t'.rows, r = row ∨ r ∈ t.rows := by
  rw [Call.addVerifiedBatch] at ha
  split_ifs at ha with hv
  have hm := fun r => Table.mem_insert (a := r) ha
  have hn : ¬row.key ≤ k := by
    intro hl
    obtain ⟨r, hr, hk⟩ := (h.2 _).mpr hl
    exact Table.find?_eq_none_iff.mp (Table.insert_eq_some ha).1 r hr hk
  have ht := h.1
  refine ⟨⟨by omega, fun j => ?_⟩, hv, fun r hr => (hm r).mp hr⟩
  constructor
  · rintro ⟨r, hr, rfl⟩
    rcases (hm r).mp hr with rfl | hr
    · omega
    · exact ((h.2 _).mp ⟨r, hr, rfl⟩).trans (Nat.le_succ k)
  intro hj
  rcases Nat.le_succ_iff.mp hj with hj | rfl
  · obtain ⟨r, hr, hk⟩ := (h.2 j).mpr hj
    exact ⟨r, (hm r).mpr (.inr hr), hk⟩
  · exact ⟨row, (hm row).mpr (.inl rfl), by omega⟩

/-- A row is refused if its batch is not virtual, or if its number is not a new one. -/
lemma UpTo.refused {row : VerifiedBatch} (h : UpTo t k) (ha : c.addVerifiedBatch t row = none) :
    c.isVirtual row.batchNumber = false ∨ row.key ≤ k := by
  by_contra hc
  obtain ⟨hv, hk⟩ := not_or.mp hc
  rw [Call.addVerifiedBatch, if_pos (by simpa using hv), Table.insert_of_new] at ha
  · cases ha
  · exact Table.find?_eq_none_iff.mpr fun r hr he => hk (he ▸ (h.2 _).mp ⟨r, hr, rfl⟩)

/-- The loop ends: a row is refused, or the rows are contiguous when the index passes the
count. -/
lemma addBatches_ends (count : UInt64) {fuel : ℕ} {last i : UInt64} (h : UpTo t k)
    (hi : (last + i).toNat = (k + 1) % 2 ^ 64) (hf : 2 ^ 64 - k ≤ fuel) :
    (c.addBatches last count fuel i t = some none ∧ ∃ k' i', k ≤ k' ∧ k' < 2 ^ 64 ∧ i' ≤ count ∧
      (count.toNat + 1 < 2 ^ 64 → i ≤ i') ∧ (last + i').toNat = (k' + 1) % 2 ^ 64 ∧
      (c.isVirtual (last + i') = false ∨ (last + i').toNat ≤ k')) ∨
    ∃ t' k' i', c.addBatches last count fuel i t = some (some t') ∧ UpTo t' k' ∧ k ≤ k' ∧
      (last + i').toNat = (k' + 1) % 2 ^ 64 ∧ count < i' ∧ (t' = t ∨ i ≤ count) ∧
      ∀ row ∈ t'.rows,
        row.isTrusted = c.isTrusted ∧ c.isVirtual row.batchNumber ∨ row ∈ t.rows := by
  have hlt := h.1
  induction fuel generalizing t k i with
  | zero => omega
  | succ fuel ih =>
    rw [Call.addBatches]
    by_cases hl : i ≤ count
    · rw [if_pos hl]
      cases ha : c.addVerifiedBatch t ⟨{ c.event with batchNumber := last + i }, c.isTrusted⟩ with
      | none => exact .inl ⟨rfl, k, i, le_rfl, hlt, hl, fun _ => UInt64.le_refl i, hi, h.refused ha⟩
      | some t₁ =>
        obtain ⟨hn, hv, ho⟩ := h.insert ha hi
        have hi' : (last + (i + 1)).toNat = (k + 1 + 1) % 2 ^ 64 := by
          rw [← UInt64.add_assoc, UInt64.toNat_add, hi, UInt64.toNat_one, Nat.mod_add_mod]
        refine (ih hn hi' (by omega) hn.1).imp ?_ ?_
        · rintro ⟨hr, k', i', hk, hlt, hle, hge, hrest⟩
          refine ⟨hr, k', i', by omega, hlt, hle, fun hcount => ?_, hrest⟩
          have hge := UInt64.le_iff_toNat_le.mp (hge hcount)
          have hl := UInt64.le_iff_toNat_le.mp hl
          rw [UInt64.toNat_add, UInt64.toNat_one] at hge
          exact UInt64.le_iff_toNat_le.mpr (by omega)
        rintro ⟨t', k', i', hk, hu, hg, hd, hp, -, ht⟩
        refine ⟨t', k', i', hk, hu, by omega, hd, hp, .inr hl, fun row hr => ?_⟩
        rcases ht row hr with hadded | hm
        · exact .inl hadded
        rcases ho row hm with rfl | hm
        · exact .inl ⟨rfl, hv⟩
        · exact .inr hm
    · rw [if_neg hl]
      exact .inr ⟨t, k, i, rfl, h, le_rfl, hi, UInt64.not_le.mp hl, .inl rfl, fun _ hr => .inr hr⟩

/-- An event is handled, and it changes the table exactly if it extends it. -/
lemma step_spec (h : UpTo t n) : (∃ result, c.processVerifyBatches t (2 ^ 64) = some result) ∧
    (c.step t = t ∧ ¬c.Extends n ∨ c.Extends n ∧ (∃ m, n < m ∧ UpTo (c.step t) m) ∧
      ∀ row ∈ (c.step t).rows, row.isTrusted = c.isTrusted ∨ row ∈ t.rows) := by
  obtain ⟨last, hlast, hn⟩ := UpTo.last_eq h
  rw [Call.step]
  unfold Call.processVerifyBatches
  rw [hlast]
  rcases hroot : c.getBatchByNumber c.event.batchNumber with _ | stateRoot
  · exact ⟨⟨_, rfl⟩, .inl ⟨rfl, fun hx => absurd (hroot.symm.trans hx.root) nofun⟩⟩
  dsimp only
  split_ifs with hr
  · refine ⟨⟨_, rfl⟩, .inl ⟨rfl, fun hx => hr ?_⟩⟩
    exact Option.some.inj (hroot.symm.trans hx.root)
  have ht := h.1
  have hi : (last.batchNumber + 1).toNat = (n + 1) % 2 ^ 64 := by
    rw [UInt64.toNat_add, hn, UInt64.toNat_one]
  have hc := UInt64.toNat_sub c.event.batchNumber last.batchNumber
  have hN := c.event.batchNumber.toNat_lt
  rw [hn] at hc
  rcases addBatches_ends (c := c) (c.event.batchNumber - last.batchNumber) h hi
    (Nat.sub_le _ _) with ⟨hf, k', i', hk, hlt, hle, hge, hidx, hv⟩ |
      ⟨t', k', i', hok, hu, hge, hidx, hp, hs, hall⟩
  · refine ⟨⟨_, hf⟩, .inl ⟨by rw [hf]; rfl, fun hx => ?_⟩⟩
    have hnew := hx.new
    have hcount := hx.count
    have hge := UInt64.le_iff_toNat_le.mp (hge (by omega))
    have hle := UInt64.le_iff_toNat_le.mp hle
    have hsum := UInt64.toNat_add last.batchNumber i'
    rw [hn] at hsum
    rw [UInt64.toNat_one] at hge
    rcases hv with hv | hv
    · rw [hx.virtual _ (by omega) (UInt64.le_iff_toNat_le.mpr (by omega))] at hv
      cases hv
    · omega
  refine ⟨⟨_, hok⟩, ?_⟩
  rw [hok]
  have hp := lt_iff_toNat_lt.mp hp
  have hi'lt := i'.toNat_lt
  have hlt := hu.1
  rw [UInt64.toNat_add, hn] at hidx
  by_cases hw : n < c.event.batchNumber.toNat
  · refine .inr ⟨⟨hw, by omega, hroot.trans ?_, fun k hk hle => ?_⟩, ⟨k', by omega, hu⟩,
      fun row hr => (hall row hr).imp_left And.left⟩
    · rw [not_not.mp hr]
    have hle := UInt64.le_iff_toNat_le.mp hle
    obtain ⟨row, hrow, hkey⟩ := (hu.2 k.toNat).mpr (by omega)
    rcases hall row hrow with ⟨-, hv⟩ | hold
    · exact UInt64.toNat_inj.mp hkey ▸ hv
    · have := (h.2 _).mp ⟨row, hold, hkey⟩
      omega
  rcases hs with rfl | hl
  · exact .inl ⟨rfl, fun hx => hw hx.new⟩
  -- the index would have to pass a count that goes beyond the row of number 0
  exfalso
  have hl := UInt64.le_iff_toNat_le.mp hl
  rw [UInt64.toNat_one] at hl
  omega

structure Genesis where
  row : VerifiedBatch
  number : row.batchNumber = 0

variable (g : Genesis) (calls : List Call)

def Genesis.run : VerifiedTable :=
  calls.foldl (fun t c => c.step t) ⟨[g.row], pairwise_singleton _ _⟩

lemma upTo_genesis : UpTo (g.run []) 0 := by
  refine ⟨by decide, fun k => ?_⟩
  simp [Genesis.run, VerifiedBatch.key, g.number, eq_comm]

lemma run_of_not_extends (h : ∀ c ∈ calls, ¬c.Extends 0) : g.run calls = g.run [] := by
  induction calls using reverseRecOn with
  | nil => rfl
  | append_singleton calls c ih =>
    have hrun := ih fun c hc => h c (mem_append_left _ hc)
    rw [Genesis.run, foldl_append, foldl_cons, foldl_nil, ← Genesis.run, hrun]
    have hc := h c (mem_append_right _ mem_cons_self)
    exact ((step_spec (upTo_genesis g)).2.resolve_right fun hx => hc hx.1).1

/-- Along every sequence of events all that is owed is kept exactly if no event extends the genesis:
the first one that does adds rows, which are marked wrongly. -/
theorem keeps_iff : (∀ before c rest, calls = before ++ c :: rest → Keeps c (g.run before)) ↔
    ∀ c ∈ calls, ¬c.Extends 0 := by
  constructor
  · intro h
    induction calls using reverseRecOn with
    | nil => simp
    | append_singleton calls c ih =>
      have hcalls := ih fun before c' rest heq => h before c' (rest ++ [c]) (by simp [heq])
      have hk := h calls c [] rfl
      rw [run_of_not_extends g calls hcalls] at hk
      refine forall_mem_append.mpr ⟨hcalls, forall_mem_singleton.mpr fun hx => ?_⟩
      obtain ⟨-, ⟨m, hm, hup⟩, hall⟩ :=
        (step_spec (upTo_genesis g)).2.resolve_left fun hsame => hsame.2 hx
      obtain ⟨row, hrow, hkey⟩ := (hup.2 m).mpr le_rfl
      have hnew : row ∉ (g.run []).rows := fun hold =>
        hm.not_ge (((upTo_genesis g).2 m).mp ⟨row, hold, hkey⟩)
      have ht := hk.trusted row hrow hnew
      rw [(hall row hrow).resolve_right hnew, Call.isTrusted, decide_eq_true_eq] at ht
      cases ho : c.order <;> simp [ho] at ht
  · rintro h before c rest rfl
    rw [run_of_not_extends g before fun c hc => h c (mem_append_left _ hc)]
    have hc := h c (mem_append_right _ mem_cons_self)
    obtain ⟨hend, hstep⟩ := step_spec (c := c) (upTo_genesis g)
    have hsame := (hstep.resolve_right fun hx => hc hx.1).1
    refine ⟨hend, ⟨0, hsame.symm ▸ upTo_genesis g⟩, fun _ _ _ => hsame, fun row hr hnew => ?_⟩
    exact absurd (hsame ▸ hr) hnew

/-- Batch 1, verified by an event that is not of the trusted aggregator. -/
def plainCall : Call where
  order := .verifyBatch
  event := ⟨7, 1, .zero, plainHash 0, plainHash 1⟩
  getBatchByNumber _ := some (plainHash 0)
  isVirtual _ := true

def plainGenesis : Genesis := ⟨⟨{ plainCall.event with batchNumber := 0 }, true⟩, rfl⟩

theorem not_keeps_plainCall : ¬Keeps plainCall (plainGenesis.run []) := by
  intro h
  have hr : (plainCall.step (plainGenesis.run [])).rows =
      [⟨plainCall.event, true⟩, plainGenesis.row] := rfl
  have ht := h.trusted ⟨plainCall.event, true⟩ (hr ▸ mem_cons_self) (by
    intro hm
    exact absurd (congrArg VerifiedBatch.key (mem_singleton.mp hm)) (by decide))
  exact absurd (ht.mp rfl) nofun

end EthdaNode.Synchronizer.VerifiedBatches
