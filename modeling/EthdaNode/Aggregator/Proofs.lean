import Mathlib.Data.List.ProdSigma
import Mathlib.Data.List.Sort

/-!
# The aggregation of proofs

The aggregator joins proofs of neighbouring batches until one of them starts after the last verified
batch and consists of complete sequences. The queries for the proofs never come to a dead end.
-/

namespace EthdaNode.Aggregator

open List

/-- A row of `state.proof`. -/
structure Proof where
  batchNumber : ℤ
  batchNumberFinal : ℤ
  proof : Option String
  generatingSince : Option ℤ
  deriving DecidableEq

/-- A row of `state.sequences`. -/
structure Sequence where
  fromBatchNumber : ℤ
  toBatchNumber : ℤ

/-- The first and the last batch of the proof are in the sequence. -/
abbrev Sequence.Has (s : Sequence) (p : Proof) : Prop :=
  s.fromBatchNumber ≤ p.batchNumber ∧ p.batchNumber ≤ s.toBatchNumber ∧
    s.fromBatchNumber ≤ p.batchNumberFinal ∧ p.batchNumberFinal ≤ s.toBatchNumber

variable (sequences sqs ss : List Sequence)

abbrev Complete (p : Proof) : Prop :=
  (∃ s ∈ sequences, s.fromBatchNumber = p.batchNumber) ∧
    ∃ s ∈ sequences, s.toBatchNumber = p.batchNumberFinal

variable (proofs ps : List Proof)

def getProofReadyToVerify (lastVerifiedBatchNumber : ℤ) : Option Proof :=
  proofs.find? fun p => p.batchNumber = lastVerifiedBatchNumber + 1 ∧ p.generatingSince = none ∧
    Complete sequences p

/-- The condition of `GetProofsToAggregate`. -/
abbrev CanAggregate (p₁ p₂ : Proof) : Prop :=
  p₁.batchNumberFinal = p₂.batchNumber - 1 ∧ p₁.generatingSince = none ∧
    p₂.generatingSince = none ∧ p₁.proof ≠ none ∧ p₂.proof ≠ none ∧
    ((∃ s ∈ sequences, s.Has p₁ ∧ s.Has p₂) ∨ Complete sequences p₁ ∧ Complete sequences p₂)

/-- `GetProofsToAggregate`: the first pair in the order of `p1.batch_num`. -/
def getProofsToAggregate : Option (Proof × Proof) :=
  (((proofs ×ˢ proofs).filter fun x => CanAggregate sequences x.1 x.2).mergeSort
    fun x y => decide (x.1.batchNumber ≤ y.1.batchNumber)).head?

abbrev Deleted (p₁ p₂ p : Proof) : Prop :=
  p₁.batchNumber ≤ p.batchNumber ∧ p.batchNumberFinal ≤ p₂.batchNumberFinal

variable (recursiveProof : Proof → Proof → String)

/-- `DeleteGeneratedProofs` and `AddGeneratedProof` for the proof of both ranges. -/
def replaceProofs (proofs : List Proof) (p₁ p₂ : Proof) : List Proof :=
  ⟨p₁.batchNumber, p₂.batchNumberFinal, some (recursiveProof p₁ p₂), none⟩ ::
    proofs.filter fun p => ¬Deleted p₁ p₂ p

/-- `tryAggregateProofs`, with a prover that answers. -/
def tryAggregateProofs (proofs : List Proof) : List Proof :=
  match getProofsToAggregate sequences proofs with
  | none => proofs
  | some (p₁, p₂) => replaceProofs recursiveProof proofs p₁ p₂

/-! ## The shape of the proofs -/

structure Consecutive : Prop where
  ordered : sequences.Pairwise fun s t => s.toBatchNumber < t.fromBatchNumber
  nonempty : ∀ s ∈ sequences, s.fromBatchNumber ≤ s.toBatchNumber

/-- Disjoint proofs, each in one sequence or of complete ones, cover the batches from the last
verified one to the end of a sequence. There may be later ones. -/
structure Shape (proofs : List Proof) (last : ℤ) : Prop where
  generated : ∀ p ∈ proofs, p.proof ≠ none ∧ p.generatingSince = none
  nonempty : ∀ p ∈ proofs, p.batchNumber ≤ p.batchNumberFinal
  disjoint : ∀ p ∈ proofs, ∀ q ∈ proofs, p = q ∨ p.batchNumberFinal < q.batchNumber ∨
    q.batchNumberFinal < p.batchNumber
  inSequences : ∀ p ∈ proofs, (∃ s ∈ sequences, s.Has p) ∨ Complete sequences p
  unverified : ∀ p ∈ proofs, last < p.batchNumber
  covers : ∃ s ∈ sequences, last < s.toBatchNumber ∧ ∀ b, last < b → b ≤ s.toBatchNumber →
    ∃ p ∈ proofs, p.batchNumber ≤ b ∧ b ≤ p.batchNumberFinal

variable {ss} {proofs ps : List Proof} {last : ℤ} {p₁ p₂ : Proof}
  {recursiveProof : Proof → Proof → String}

lemma Consecutive.eq_of_mem (h : Consecutive ss) {s t : Sequence} (hs : s ∈ ss)
    (ht : t ∈ ss) {b : ℤ} (hb : s.fromBatchNumber ≤ b ∧ b ≤ s.toBatchNumber)
    (hb' : t.fromBatchNumber ≤ b ∧ b ≤ t.toBatchNumber) : s = t := by
  obtain ⟨i, hi, rfl⟩ := mem_iff_getElem.mp hs
  obtain ⟨j, hj, rfl⟩ := mem_iff_getElem.mp ht
  have ho := pairwise_iff_getElem.mp h.ordered
  rcases Nat.lt_trichotomy i j with hij | rfl | hij
  · have hl := ho i j hi hj hij
    omega
  · rfl
  · have hl := ho j i hj hi hij
    omega

lemma getProofsToAggregate_eq_some (h : getProofsToAggregate ss ps = some (p₁, p₂)) :
    p₁ ∈ ps ∧ p₂ ∈ ps ∧ CanAggregate ss p₁ p₂ := by
  have hm := mem_mergeSort.mp (mem_of_mem_head? h)
  obtain ⟨hp, hc⟩ := mem_filter.mp hm
  obtain ⟨hp₁, hp₂⟩ := mem_product.mp hp
  exact ⟨hp₁, hp₂, of_decide_eq_true hc⟩

lemma isSome_proofsToAggregate (hp₁ : p₁ ∈ ps) (hp₂ : p₂ ∈ ps)
    (hc : CanAggregate ss p₁ p₂) : (getProofsToAggregate ss ps).isSome := by
  have hm : (p₁, p₂) ∈ ((ps ×ˢ ps).filter fun x => CanAggregate ss x.1 x.2) :=
    mem_filter.mpr ⟨mem_product.mpr ⟨hp₁, hp₂⟩, decide_eq_true hc⟩
  rw [getProofsToAggregate, isSome_head?]
  exact ne_nil_of_mem (mem_mergeSort.mpr hm)

section
variable (h : Shape ss ps last)
include h

/-- The first proof is ready, or it goes together with the next one. -/
lemma Shape.progress (hq : Consecutive ss) (hst : ∃ s ∈ ss, s.fromBatchNumber = last + 1) :
    (getProofReadyToVerify ss ps last).isSome ∨ (getProofsToAggregate ss ps).isSome := by
  obtain ⟨s, hs, hr⟩ := hst
  obtain ⟨e, he, hl, hv⟩ := h.covers
  obtain ⟨p₁, hp₁, hle, hg⟩ := hv (last + 1) (by omega) (by omega)
  have hf := h.unverified p₁ hp₁
  by_cases hc : Complete ss p₁
  · refine .inl (List.find?_isSome.mpr ⟨p₁, hp₁, decide_eq_true ?_⟩)
    exact ⟨by omega, (h.generated p₁ hp₁).2, hc⟩
  refine .inr ?_
  have hs' := hq.nonempty s hs
  obtain ⟨t, ht, hh⟩ := (h.inSequences p₁ hp₁).resolve_right hc
  obtain rfl := hq.eq_of_mem hs ht (b := p₁.batchNumber) ⟨by omega, by omega⟩ ⟨hh.1, hh.2.1⟩
  have hen : p₁.batchNumberFinal ≠ s.toBatchNumber := fun heq =>
    hc ⟨⟨s, hs, by omega⟩, s, hs, heq.symm⟩
  have hls : s.toBatchNumber ≤ e.toBatchNumber := by
    by_contra hgt
    obtain rfl := hq.eq_of_mem hs he (b := e.toBatchNumber) ⟨by omega, by omega⟩
      ⟨hq.nonempty e he, le_refl _⟩
    exact hgt (le_refl _)
  obtain ⟨p₂, hp₂, hle₂, hge₂⟩ := hv (p₁.batchNumberFinal + 1) (by omega) (by omega)
  have hn : p₁.batchNumberFinal = p₂.batchNumber - 1 := by
    rcases h.disjoint p₁ hp₁ p₂ hp₂ with rfl | hl | hl
    · omega
    · omega
    · omega
  have hhas₂ : s.Has p₂ := by
    rcases h.inSequences p₂ hp₂ with ⟨t, ht, hhas₂⟩ | ⟨⟨t, ht, hfrom₂⟩, -⟩
    · obtain rfl := hq.eq_of_mem hs ht (b := p₂.batchNumber) ⟨by omega, by omega⟩
        ⟨hhas₂.1, hhas₂.2.1⟩
      exact hhas₂
    -- complete sequences would start inside the one of the first proof
    have ht' := hq.nonempty t ht
    obtain rfl := hq.eq_of_mem hs ht (b := p₂.batchNumber) ⟨by omega, by omega⟩
      ⟨by omega, by omega⟩
    omega
  exact isSome_proofsToAggregate hp₁ hp₂ ⟨hn, (h.generated p₁ hp₁).2, (h.generated p₂ hp₂).2,
    (h.generated p₁ hp₁).1, (h.generated p₂ hp₂).1, .inl ⟨s, hs, hh, hhas₂⟩⟩

lemma Shape.apart (hp₁ : p₁ ∈ ps) (hp₂ : p₂ ∈ ps) (hn : p₁.batchNumberFinal = p₂.batchNumber - 1)
    {q : Proof} (hq : q ∈ ps.filter fun p => ¬Deleted p₁ p₂ p) : q ∈ ps ∧
    (q.batchNumberFinal < p₁.batchNumber ∨ p₂.batchNumberFinal < q.batchNumber) := by
  obtain ⟨hq, hk⟩ := mem_filter.mp hq
  have hk := of_decide_eq_true hk
  have h₁ := h.nonempty p₁ hp₁
  have h₂ := h.nonempty p₂ hp₂
  have h₃ := h.nonempty q hq
  refine ⟨hq, ?_⟩
  rcases h.disjoint p₁ hp₁ q hq with rfl | hl | hl
  · omega
  · rcases h.disjoint p₂ hp₂ q hq with rfl | ht | ht
    · omega
    · omega
    · omega
  · omega

lemma Shape.replaceProofs (hp₁ : p₁ ∈ ps) (hp₂ : p₂ ∈ ps) (hc : CanAggregate ss p₁ p₂) : Shape ss
    (replaceProofs recursiveProof ps p₁ p₂) last := by
  have hn := hc.1
  have h₁ := h.nonempty p₁ hp₁
  have h₂ := h.nonempty p₂ hp₂
  constructor
  case generated =>
    refine forall_mem_cons.mpr ⟨⟨nofun, rfl⟩, fun p hp => ?_⟩
    exact h.generated p (mem_filter.mp hp).1
  case nonempty =>
    refine forall_mem_cons.mpr ⟨?_, fun p hp => h.nonempty p (mem_filter.mp hp).1⟩
    show p₁.batchNumber ≤ p₂.batchNumberFinal
    omega
  case disjoint =>
    refine forall_mem_cons.mpr ⟨forall_mem_cons.mpr ⟨.inl rfl, fun q hq => ?_⟩,
      fun p hp => forall_mem_cons.mpr ⟨?_, fun q hq => ?_⟩⟩
    · exact .inr (h.apart hp₁ hp₂ hn hq).2.symm
    · exact .inr (h.apart hp₁ hp₂ hn hp).2
    · exact h.disjoint p (mem_filter.mp hp).1 q (mem_filter.mp hq).1
  case inSequences =>
    refine forall_mem_cons.mpr ⟨?_, fun p hp => h.inSequences p (mem_filter.mp hp).1⟩
    rcases hc.2.2.2.2.2 with ⟨s, hs, hhas₁, hhas₂⟩ | ⟨hcompl₁, hcompl₂⟩
    · exact .inl ⟨s, hs, hhas₁.1, hhas₁.2.1, hhas₂.2.2⟩
    · exact .inr ⟨hcompl₁.1, hcompl₂.2⟩
  case unverified =>
    exact forall_mem_cons.mpr
      ⟨h.unverified p₁ hp₁, fun p hp => h.unverified p (mem_filter.mp hp).1⟩
  case covers =>
    obtain ⟨e, he, ht, hv⟩ := h.covers
    refine ⟨e, he, ht, fun b hb hbe => ?_⟩
    obtain ⟨p, hp, hl, hg⟩ := hv b hb hbe
    by_cases hd : Deleted p₁ p₂ p
    · exact ⟨_, mem_cons_self, hd.1.trans hl, hg.trans hd.2⟩
    · exact ⟨p, mem_cons_of_mem _ (mem_filter.mpr ⟨hp, decide_eq_true hd⟩), hl, hg⟩

lemma Shape.length_replaceProofs (hp₁ : p₁ ∈ ps)
    (hp₂ : p₂ ∈ ps) (hn : p₁.batchNumberFinal = p₂.batchNumber - 1) :
    (Aggregator.replaceProofs recursiveProof ps p₁ p₂).length < ps.length := by
  have h₁ := h.nonempty p₁ hp₁
  have h₂ := h.nonempty p₂ hp₂
  have hs := ps.length_eq_length_filter_add fun p => decide (¬Deleted p₁ p₂ p)
  have hm : ∀ p ∈ [p₁, p₂], p ∈ ps.filter fun p => !decide (¬Deleted p₁ p₂ p) := by
    simp only [decide_not, Bool.not_not, mem_filter, decide_eq_true_eq, forall_mem_cons]
    exact ⟨⟨hp₁, le_refl _, by omega⟩, ⟨hp₂, by omega, le_refl _⟩, nofun⟩
  obtain ⟨hmem₁, hmem₂⟩ := forall_mem_cons.mp hm
  rw [Aggregator.replaceProofs, length_cons]
  generalize (ps.filter fun p => !decide (¬Deleted p₁ p₂ p)) = deleted at hs hmem₁ hmem₂
  replace hmem₂ := hmem₂ p₂ mem_cons_self
  match deleted with
  | [p] =>
    obtain rfl := mem_singleton.mp hmem₁
    obtain rfl := mem_singleton.mp hmem₂
    omega
  | p :: q :: rest =>
    simp only [length_cons] at hs
    omega
end

/-- Proofs are joined until one of them can be verified. -/
theorem aggregation_ends (sequences : List Sequence) (hseq : Consecutive sequences)
    (recursiveProof : Proof → Proof → String) (last : ℤ)
    (hstart : ∃ s ∈ sequences, s.fromBatchNumber = last + 1) (proofs : List Proof)
    (h : Shape sequences proofs last) :
    ((getProofReadyToVerify sequences proofs last).isSome ∨
    (getProofsToAggregate sequences proofs).isSome) ∧
    (∀ p₁ p₂, getProofsToAggregate sequences proofs = some (p₁, p₂) →
    Shape sequences (replaceProofs recursiveProof proofs p₁ p₂) last) ∧
    ∃ n ≤ proofs.length, (getProofReadyToVerify sequences
    ((tryAggregateProofs sequences recursiveProof)^[n] proofs) last).isSome := by
  refine ⟨h.progress hseq hstart, fun p₁ p₂ hpr => ?_, ?_⟩
  · obtain ⟨hp₁, hp₂, hc⟩ := getProofsToAggregate_eq_some hpr
    exact h.replaceProofs hp₁ hp₂ hc
  induction hl : proofs.length using Nat.strong_induction_on generalizing proofs with
  | _ n ih =>
    rcases h.progress hseq hstart with hr | hpr
    · exact ⟨0, Nat.zero_le _, hr⟩
    obtain ⟨⟨p₁, p₂⟩, hpr⟩ := Option.isSome_iff_exists.mp hpr
    obtain ⟨hp₁, hp₂, hc⟩ := getProofsToAggregate_eq_some hpr
    have hsh : (replaceProofs recursiveProof proofs p₁ p₂).length < proofs.length :=
      h.length_replaceProofs hp₁ hp₂ hc.1
    obtain ⟨m, hm, hr⟩ := ih _ (hl ▸ hsh) _ (h.replaceProofs hp₁ hp₂ hc) rfl
    refine ⟨m + 1, by omega, ?_⟩
    rwa [Function.iterate_succ_apply, tryAggregateProofs, hpr]

/-- Two proofs of the first sequence, and one in the second. -/
theorem aggregation_ends_two : ∃ n ≤ 3, (getProofReadyToVerify [⟨1, 3⟩, ⟨4, 6⟩]
    ((tryAggregateProofs [⟨1, 3⟩, ⟨4, 6⟩] fun _ _ => "")^[n]
    [⟨2, 3, some "", none⟩, ⟨5, 5, some "", none⟩, ⟨1, 1, some "", none⟩]) 0).isSome := by
  refine (aggregation_ends [⟨1, 3⟩, ⟨4, 6⟩] ⟨by simp, by decide⟩ (fun _ _ => "") 0
    ⟨_, mem_cons_self, rfl⟩
    [⟨2, 3, some "", none⟩, ⟨5, 5, some "", none⟩, ⟨1, 1, some "", none⟩] ?_).2.2
  refine ⟨by decide, by decide, by decide, by decide, by decide, ⟨1, 3⟩, mem_cons_self, by decide,
    fun b hb (hbe : b ≤ 3) => ?_⟩
  simp only [mem_cons, not_mem_nil, or_false, exists_eq_or_imp, exists_eq_left]
  omega

end EthdaNode.Aggregator
