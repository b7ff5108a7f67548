import EthdaNode.Sequencer.Finalizer

/-!
# Chains of batches

The state roots go from L2 block to L2 block along a chain of batches: the batch in
process, the batches of the L2 blocks that wait to be processed, and the batch in
progress. Each of them is the same as the one before or the next one, and the first
one has the root from which the next L2 block starts.
-/

namespace EthdaNode.Sequencer

open List Option

structure BatchInfo where
  number : UInt64
  count : ℕ
  root : Hash

variable (batches bs : List BatchInfo)

def Follows (r r' : BatchRef) : Prop :=
  r' = r ∨ ∃ b b', batches[r]? = some b ∧ batches[r']? = some b' ∧ b'.number = b.number + 1

def KeepsNumbers (batches' : List BatchInfo) : Prop :=
  ∀ (r : BatchRef) (b : BatchInfo), batches[r]? = some b →
    ∃ b', batches'[r]? = some b' ∧ b'.number = b.number

/-- Batches that follow each other; the first one has the root `root`. -/
structure BatchChain (batches : List BatchInfo) (chain : List BatchRef) (root : Hash) :
    Prop where
  valid : ∀ r ∈ chain, r < batches.length
  follows : chain.IsChain (Follows batches)
  root_eq : ∀ r b, chain.head? = some r → batches[r]? = some b → b.root = root

/-! ## Changes of the batches -/

section
variable {batches bs batches' : List BatchInfo} {r r' : BatchRef} {b b' : BatchInfo}

lemma lt_of_getElem? {α : Type} {l : List α} {i : ℕ} {a : α} (h : l[i]? = some a) : i < l.length :=
  (List.getElem?_eq_some_iff.mp h).1

lemma keepsNumbers_append (bs : List BatchInfo) (b : BatchInfo) : KeepsNumbers bs (bs ++ [b]) := by
  intro r b₀ hb₀
  exact ⟨b₀, by rwa [getElem?_append_left (lt_of_getElem? hb₀)], rfl⟩

lemma keepsNumbers_set (hb : bs[r]? = some b) (hn : b'.number = b.number) :
    KeepsNumbers bs (bs.set r b') := by
  intro q b₀ hb₀
  by_cases hq : r = q
  · subst hq
    obtain rfl := mem_unique hb hb₀
    exact ⟨b', getElem?_set_self (lt_of_getElem? hb), hn⟩
  · exact ⟨b₀, by rwa [getElem?_set_ne hq], rfl⟩

lemma KeepsNumbers.lt (h : KeepsNumbers bs batches') (hr : r < bs.length) :
    r < batches'.length := by
  obtain ⟨b', hb', -⟩ := h r bs[r] (getElem?_eq_getElem hr)
  exact lt_of_getElem? hb'

lemma Follows.keeps (h : Follows bs r r') (hk : KeepsNumbers bs batches') :
    Follows batches' r r' := by
  rcases h with h | ⟨b, b', hb, hb', hn⟩
  · exact .inl h
  obtain ⟨c, hc, hcn⟩ := hk r b hb
  obtain ⟨c', hc', hcm⟩ := hk r' b' hb'
  exact .inr ⟨c, c', hc, hc', by rw [hcm, hcn, hn]⟩

lemma Follows.eq_of_number (h : Follows bs r r') (hb : bs[r]? = some b)
    (hb' : bs[r']? = some b') (hnm : b.number = b'.number) : r' = r := by
  rcases h with h | ⟨c, c', hc, hc', hnx⟩
  · exact h
  obtain rfl := mem_unique hb hc
  obtain rfl := mem_unique hb' hc'
  rw [hnm] at hnx
  exact absurd hnx (by simp)
end

namespace BatchChain

variable {batches bs batches' : List BatchInfo} {ch : List BatchRef} {root root' : Hash}
  {r w : BatchRef} {b b' : BatchInfo}

lemma nil (bs : List BatchInfo) (root : Hash) : BatchChain bs [] root where
  valid r hr := by cases hr
  follows := isChain_nil
  root_eq r b hr := by cases hr

lemma single (hb : bs[w]? = some b) : BatchChain bs [w] b.root where
  valid r hr := by
    rw [mem_singleton.mp hr]
    exact lt_of_getElem? hb
  follows := isChain_singleton w
  root_eq r b' hr hb' := by
    cases hr
    rw [mem_unique hb hb']

lemma keeps (h : BatchChain bs ch root) (hk : KeepsNumbers bs batches')
    (hrt : ∀ r b, ch.head? = some r → batches'[r]? = some b → b.root = root') :
    BatchChain batches' ch root' where
  valid r hr := hk.lt (h.valid r hr)
  follows := h.follows.imp fun _ _ hr => hr.keeps hk
  root_eq := hrt

lemma append (h : BatchChain bs ch root) (b : BatchInfo) : BatchChain (bs ++ [b]) ch root := by
  refine h.keeps (keepsNumbers_append bs b) fun r b' hr hb' => ?_
  rw [getElem?_append_left (h.valid r (mem_of_head? hr))] at hb'
  exact h.root_eq r b' hr hb'

lemma set (h : BatchChain bs ch root) (hb : bs[r]? = some b) (hn : b'.number = b.number)
    (hr : b'.root = b.root) : BatchChain (bs.set r b') ch root := by
  refine h.keeps (keepsNumbers_set hb hn) fun q c hq hc => ?_
  by_cases hqr : r = q
  · subst hqr
    rw [getElem?_set_self (lt_of_getElem? hb)] at hc
    rw [← Option.some.inj hc, hr]
    exact h.root_eq r b hq hb
  · rw [getElem?_set_ne hqr] at hc
    exact h.root_eq q c hq hc

lemma setHead (h : BatchChain bs (r :: ch) root) (hb : bs[r]? = some b) (hn : b'.number =
    b.number) : BatchChain (bs.set r b') (r :: ch) b'.root := by
  refine h.keeps (keepsNumbers_set hb hn) fun q c hq hc => ?_
  cases hq
  rw [getElem?_set_self (lt_of_getElem? hb)] at hc
  rw [← Option.some.inj hc]

lemma left {rest : List BatchRef} (h : BatchChain bs (ch ++ rest) root)
    (hne : ch ≠ []) : BatchChain bs ch root where
  valid r hr := h.valid r (mem_append_left _ hr)
  follows := h.follows.left_of_append
  root_eq r b hr := by
    refine h.root_eq r b ?_
    rw [head?_append_of_ne_nil _ hne]
    exact hr

lemma concat (h : BatchChain bs ch root) (hl : ch.getLast? = some w) (hw : Follows bs w r)
    (hr : r < bs.length) : BatchChain bs (ch ++ [r]) root where
  valid q hq := by
    rcases mem_append.mp hq with hq | hq
    · exact h.valid q hq
    · rwa [mem_singleton.mp hq]
  follows := by
    refine h.follows.append (isChain_singleton r) fun x hx y hy => ?_
    obtain rfl := mem_unique hl hx
    cases hy
    exact hw
  root_eq q b hq := by
    refine h.root_eq q b ?_
    rwa [head?_append_of_ne_nil] at hq
    rintro rfl
    cases hl

lemma double_iff : BatchChain bs (r :: r :: ch) root ↔ BatchChain bs (r :: ch) root := by
  constructor
  · intro h
    exact ⟨fun q hq => h.valid q (mem_cons_of_mem r hq), h.follows.tail, h.root_eq⟩
  intro h
  refine ⟨fun q hq => ?_, isChain_cons_cons.mpr ⟨.inl rfl, h.follows⟩, h.root_eq⟩
  rcases mem_cons.mp hq with rfl | hq
  · exact h.valid q mem_cons_self
  · exact h.valid q hq

lemma right {rest : List BatchRef} (h : BatchChain bs (rest ++ r :: ch) root)
    (hb : bs[r]? = some b) : BatchChain bs (r :: ch) b.root where
  valid q hq := h.valid q (mem_append_right rest hq)
  follows := h.follows.right_of_append
  root_eq q c hq hc := by
    cases hq
    rw [mem_unique hb hc]

end BatchChain

end EthdaNode.Sequencer
