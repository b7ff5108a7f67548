import EthdaNode.Sequencer.TxTracker
import EthdaNode.Support.GoMap
import EthdaNode.Support.SortSearch

/-!
# The sorted list of ready transactions

`txSortedList`: a map from hashes to trackers and a slice of the same trackers
in descending order of the gas price. Both operations look for a position with
`sort.Search` and read the gas prices through the map, so they panic if the map
lacks a transaction of the slice; `WF` is the invariant that excludes this, and
under it `add` and `delete` do what their names say.
-/

namespace EthdaNode.Sequencer

open Go Go.Outcome List

structure TxSortedList where
  list : GoMap Hash TxTracker
  sorted : List TxTracker

namespace TxSortedList

def new : TxSortedList := ⟨∅, []⟩

def isGreaterThan (tx₁ tx₂ : TxTracker) : Bool := tx₁.gasPrice > tx₂.gasPrice

def isGreaterOrEqualThan (tx₁ tx₂ : TxTracker) : Bool := tx₁.gasPrice ≥ tx₂.gasPrice

variable (e : TxSortedList)

/-- The tracker `e.list[e.sorted[i].HashStr]`; a missing one is a nil pointer,
whose gas price cannot be read. -/
def at? (i : ℕ) : Outcome WorkerError TxTracker := do
  let s ← index e.sorted i
  match e.list.lookup s.hash with
  | some tx => .ok tx
  | none => .panic

variable (tx : TxTracker)

def addSort : Outcome WorkerError TxSortedList := do
  let i ← search e.sorted.length fun i => do
    let other ← e.at? i
    .ok (isGreaterThan tx other)
  .ok { e with sorted := e.sorted.insertIdx i tx }

def add : Outcome WorkerError (Bool × TxSortedList) :=
  match e.list.lookup tx.hash with
  | none => do
      let e' ← addSort { e with list := e.list.insert tx.hash tx } tx
      .ok (true, e')
  | some _ => .ok (false, e)

/-- The loop of `delete` that goes down from the index `i`; `rest` is the slice
from there on. -/
def findFrom (tx : TxTracker) : List TxTracker → ℕ → Option ℕ
  | [], _ => none
  | s :: rest, i =>
    if s.gasPrice ≠ tx.gasPrice then none
    else if s.hash = tx.hash then some i
    else findFrom tx rest (i + 1)

def delete : Outcome WorkerError (Bool × TxSortedList) :=
  match e.list.lookup tx.hash with
  | some tx => do
      let i ← search e.sorted.length fun i => do
        let other ← e.at? i
        .ok (isGreaterOrEqualThan tx other)
      match findFrom tx (e.sorted.drop i) i with
      | none => .ok (false, e)
      | some i => .ok (true, ⟨e.list.erase tx.hash, e.sorted.eraseIdx i⟩)
  | none => .ok (false, e)

/-! ## The invariant -/

/-- The map and the slice hold the same trackers, one for each hash, in descending order of the gas
price. -/
structure WF (e : TxSortedList) : Prop where
  mem_iff : ∀ t, t ∈ e.sorted ↔ e.list.lookup t.hash = some t
  lookup_hash : ∀ h t, e.list.lookup h = some t → t.hash = h
  nodup : e.sorted.Nodup
  ordered : e.sorted.Pairwise fun a b => b.gasPrice ≤ a.gasPrice

lemma wf_new : new.WF where
  mem_iff t := by simp [new]
  lookup_hash h t hlook := by simp [new] at hlook
  nodup := nodup_nil
  ordered := List.Pairwise.nil

variable {e : TxSortedList}

lemma WF.eq_of_hash_eq (h : e.WF) {s t : TxTracker} (hs : s ∈ e.sorted) (ht : t ∈ e.sorted)
    (hh : s.hash = t.hash) : s = t := by
  have hs' := (h.mem_iff s).mp hs
  rw [hh, (h.mem_iff t).mp ht] at hs'
  exact (Option.some.inj hs').symm

lemma WF.map (h : e.WF) {f : TxTracker → TxTracker} (hh : ∀ t, (f t).hash = t.hash)
    (hp : ∀ t, (f t).gasPrice = t.gasPrice) : WF ⟨e.list.mapValues f, e.sorted.map f⟩ where
  mem_iff t := by
    simp only [mem_map, GoMap.lookup_mapValues, Option.map_eq_some_iff]
    constructor
    · rintro ⟨s, hs, rfl⟩
      exact ⟨s, by rw [hh, (h.mem_iff s).mp hs], rfl⟩
    rintro ⟨s, hs, rfl⟩
    rw [hh] at hs
    exact ⟨s, (h.mem_iff s).mpr hs, rfl⟩
  lookup_hash k t ht := by
    obtain ⟨s, hs, rfl⟩ := Option.map_eq_some_iff.mp ((GoMap.lookup_mapValues f _ k).symm.trans ht)
    rw [hh, h.lookup_hash k s hs]
  nodup := by
    refine Nodup.map_on ?_ h.nodup
    intro s hs t ht he
    refine h.eq_of_hash_eq hs ht ?_
    rw [← hh s, he, hh]
  ordered := by
    rw [pairwise_map]
    simp only [hp]
    exact h.ordered

lemma at?_eq (hl : ∀ t ∈ e.sorted, e.list.lookup t.hash = some t) {i : ℕ} {s : TxTracker}
    (hs : e.sorted[i]? = some s) : e.at? i = .ok s := by
  have hi : (index e.sorted i : Outcome WorkerError TxTracker) = .ok s := index_ok_iff.mpr hs
  rw [at?, hi, ok_bind, hl s (mem_of_getElem? hs)]

lemma search_at?_eq {e : TxSortedList} (hlk : ∀ t ∈ e.sorted, e.list.lookup t.hash = some t)
    (ho : e.sorted.Pairwise fun a b => b.gasPrice ≤ a.gasPrice)
    (cmp : TxTracker → Bool)
    (hc : ∀ a b, b.gasPrice ≤ a.gasPrice → cmp a = true → cmp b = true) :
    ∃ m, search e.sorted.length (fun i => do
          let oth ← e.at? i
          .ok (cmp oth)) = .ok m ∧ m ≤ e.sorted.length ∧
      (∀ s ∈ e.sorted.take m, cmp s = false) ∧ ∀ s ∈ e.sorted.drop m, cmp s = true := by
  have hf : ∀ k, k < e.sorted.length → (do
      let oth ← e.at? k
      .ok (cmp oth) : Outcome WorkerError Bool) = .ok ((e.sorted[k]?).any cmp) := by
    intro k hk
    have hg := List.getElem?_eq_getElem hk
    rw [at?_eq hlk hg, ok_bind, hg, Option.any_some]
  obtain ⟨m, hm⟩ := @exists_splits (fun k => (e.sorted[k]?).any cmp)
    e.sorted.length (by
      intro i j hij hj hi
      rw [List.getElem?_eq_getElem (by omega), Option.any_some] at hi
      rw [List.getElem?_eq_getElem hj, Option.any_some]
      rcases Nat.eq_or_lt_of_le hij with rfl | hlt
      · exact hi
      · exact hc _ _ (pairwise_iff_getElem.mp ho i j _ hj hlt) hi)
  refine ⟨m, searchLoop_eq hf hm (by omega) (Nat.zero_le m) hm.1 le_rfl, hm.1, ?_, ?_⟩
  · intro s hs
    obtain ⟨k, hk, rfl⟩ := mem_take_iff_getElem.mp hs
    have hl : (e.sorted[k]?).any cmp = false := hm.2.1 k (by omega)
    rwa [List.getElem?_eq_getElem (by omega), Option.any_some] at hl
  intro s hs
  obtain ⟨k, hk, rfl⟩ := mem_drop_iff_getElem.mp hs
  have ht : (e.sorted[m + k]?).any cmp = true := hm.2.2 (m + k) (by omega) (by omega)
  rwa [List.getElem?_eq_getElem (by omega), Option.any_some] at ht

lemma insertIdx_eq {l : List TxTracker} {m : ℕ} (hm : m ≤ l.length)
    (tx : TxTracker) : l.insertIdx m tx = l.take m ++ tx :: l.drop m := by
  induction l generalizing m with
  | nil =>
    have : m = 0 := by simpa using hm
    simp [this]
  | cons a l ih =>
    cases m with
    | zero => simp
    | succ m => simp [ih (by simpa using hm)]

variable {tx : TxTracker}

lemma add_of_mem (h : e.WF) (hm : tx ∈ e.sorted) : e.add tx = .ok (false, e) := by
  rw [add, (h.mem_iff tx).mp hm]

variable {post pre : List TxTracker}

/-- The slice stays ordered if `tx` goes between the prices that are not below
its own and those that are. -/
lemma ordered_insert (h : (pre ++ post).Pairwise fun a b => b.gasPrice ≤ a.gasPrice)
    (hp : ∀ s ∈ pre, tx.gasPrice ≤ s.gasPrice) (hs : ∀ s ∈ post, s.gasPrice ≤ tx.gasPrice) :
    (pre ++ tx :: post).Pairwise fun a b => b.gasPrice ≤ a.gasPrice := by
  obtain ⟨hd, ho, hc⟩ := pairwise_append.mp h
  refine pairwise_append.mpr ⟨hd, pairwise_cons.mpr ⟨hs, ho⟩, ?_⟩
  intro a ha b hb
  rcases mem_cons.mp hb with rfl | hb
  · exact hp a ha
  · exact hc a ha b hb

lemma add_of_new (h : e.WF) (hn : e.list.lookup tx.hash = none) : ∃ e', e.add tx = .ok (true, e') ∧
    e'.WF ∧ (∀ t, t ∈ e'.sorted ↔ t = tx ∨ t ∈ e.sorted) ∧ ∃ pre post, e.sorted = pre ++ post ∧
    e'.sorted = pre ++ tx :: post ∧ ∀ s ∈ post, s.gasPrice < tx.gasPrice := by
  have hne : ∀ t ∈ e.sorted, t.hash ≠ tx.hash := by
    intro t ht he
    have hk := (h.mem_iff t).mp ht
    rw [he, hn] at hk
    cases hk
  have hk : ∀ t ∈ e.sorted, (e.list.insert tx.hash tx).lookup t.hash = some t := by
    intro t ht
    rw [GoMap.lookup_insert_eq, if_neg (hne t ht)]
    exact (h.mem_iff t).mp ht
  obtain ⟨m, hr, hm, hb, ha⟩ :=
    @search_at?_eq ⟨e.list.insert tx.hash tx, e.sorted⟩ hk h.ordered
      (isGreaterThan tx) (by
        intro a b hab hg
        simp only [isGreaterThan, decide_eq_true_eq] at hg ⊢
        omega)
  have hw : ∀ s ∈ e.sorted.drop m, s.gasPrice < tx.gasPrice := by
    intro s hs
    simpa [isGreaterThan] using ha s hs
  refine ⟨⟨e.list.insert tx.hash tx, e.sorted.insertIdx m tx⟩, ?_, ?_, ?_, e.sorted.take m,
    e.sorted.drop m, (take_append_drop m _).symm, insertIdx_eq hm tx, hw⟩
  · rw [add, hn]
    simp only [addSort, hr, ok_bind]
  · have hp : (e.sorted.insertIdx m tx).Perm (tx :: e.sorted) := perm_insertIdx tx e.sorted hm
    refine ⟨?_, ?_, ?_, ?_⟩
    · intro t
      rw [mem_insertIdx hm, GoMap.lookup_insert_eq, h.mem_iff]
      by_cases hh : t.hash = tx.hash
      · rw [if_pos hh, hh, hn, Option.some.injEq, eq_comm]
        simp
      rw [if_neg hh]
      constructor
      · rintro (rfl | hmm)
        · exact absurd rfl hh
        · exact hmm
      · exact .inr
    · intro hash t hl
      rw [GoMap.lookup_insert_eq] at hl
      split at hl
      · next he => rw [he, ← Option.some.inj hl]
      · exact h.lookup_hash hash t hl
    · rw [hp.nodup_iff, nodup_cons]
      exact ⟨fun hmm => hne tx hmm rfl, h.nodup⟩
    show (e.sorted.insertIdx m tx).Pairwise fun a b => b.gasPrice ≤ a.gasPrice
    rw [insertIdx_eq hm]
    apply ordered_insert
    · rw [take_append_drop]
      exact h.ordered
    · intro s hs
      have hle := hb s hs
      simpa [isGreaterThan] using hle
    · intro s hs
      exact (hw s hs).le
  · intro t
    rw [mem_insertIdx hm]

lemma findFrom_append (i : ℕ) (h : ∀ s ∈ pre, s.gasPrice = tx.gasPrice ∧ s.hash ≠ tx.hash) :
    findFrom tx (pre ++ tx :: post) i = some (i + pre.length) := by
  induction pre generalizing i with
  | nil => simp [findFrom]
  | cons s pre ih =>
    obtain ⟨hp, hh⟩ := h s mem_cons_self
    rw [cons_append, findFrom, if_neg (by simpa using hp),
      if_neg hh, ih (i + 1) fun t ht => h t (mem_cons_of_mem _ ht),
      length_cons]
    congr 1
    omega

lemma mem_without (h : e.WF) (hs : e.sorted = pre ++ tx :: post) (t : TxTracker) :
    t ∈ pre ++ post ↔ t ≠ tx ∧ t ∈ e.sorted := by
  have hn := h.nodup
  rw [hs, perm_middle.nodup_iff, nodup_cons] at hn
  rw [hs, perm_middle.mem_iff, mem_cons]
  constructor
  · intro ht
    refine ⟨?_, .inr ht⟩
    rintro rfl
    exact hn.1 ht
  · rintro ⟨he, rfl | ht⟩
    · exact absurd rfl he
    · exact ht

lemma wf_without (h : e.WF) (hs : e.sorted = pre ++ tx :: post) :
    WF ⟨e.list.erase tx.hash, pre ++ post⟩ := by
  have hm : tx ∈ e.sorted := by simp [hs]
  have hb : (pre ++ post).Sublist e.sorted := by
    rw [hs]
    exact Sublist.append_left (sublist_cons_self tx post) pre
  refine ⟨?_, ?_, h.nodup.sublist hb, h.ordered.sublist hb⟩
  · intro t
    rw [mem_without h hs, GoMap.lookup_erase_eq, h.mem_iff]
    by_cases hh : t.hash = tx.hash
    · rw [if_pos hh]
      constructor
      · rintro ⟨hn, ht⟩
        exact absurd (h.eq_of_hash_eq ((h.mem_iff t).mpr ht) hm hh) hn
      · intro hnn
        cases hnn
    rw [if_neg hh]
    constructor
    · exact And.right
    intro ht
    refine ⟨?_, ht⟩
    rintro rfl
    exact hh rfl
  · intro hash t hl
    rw [GoMap.lookup_erase_eq] at hl
    split at hl
    · cases hl
    · exact h.lookup_hash hash t hl

lemma delete_of_mem (h : e.WF) (hmm : tx ∈ e.sorted) :
    ∃ e', e.delete tx = .ok (true, e') ∧ e'.WF ∧ (∀ t, t ∈ e'.sorted ↔ t ≠ tx ∧ t ∈ e.sorted) ∧
    e'.sorted = e.sorted.filter (·.hash ≠ tx.hash) := by
  obtain ⟨m, hr, hm, hb, ha⟩ :=
    search_at?_eq (fun t ht => (h.mem_iff t).mp ht) h.ordered
      (isGreaterOrEqualThan tx) (by
        intro a b hab hg
        simp only [isGreaterOrEqualThan, decide_eq_true_eq] at hg ⊢
        omega)
  have hlk := (h.mem_iff tx).mp hmm
  obtain ⟨pre, post, hsp⟩ := append_of_mem hmm
  have ho := h.ordered
  rw [hsp] at ho
  have hl : m ≤ pre.length := by
    by_contra hlt
    have htk : tx ∈ e.sorted.take m := by
      rw [hsp, take_append, take_cons (by omega)]
      simp
    simpa [isGreaterOrEqualThan] using hb tx htk
  have hd : e.sorted.drop m = pre.drop m ++ tx :: post := by
    rw [hsp, drop_append_of_le_length hl]
  have hsm : ∀ s ∈ pre.drop m, s.gasPrice = tx.gasPrice ∧ s.hash ≠ tx.hash := by
    intro s hs
    have hp := mem_of_mem_drop hs
    have hs' : s ∈ e.sorted := by
      rw [hsp]
      exact mem_append_left _ hp
    have hg := ha s (by rw [hd]; exact mem_append_left _ hs)
    have hl := (pairwise_append.mp ho).2.2 s hp tx mem_cons_self
    simp only [isGreaterOrEqualThan, decide_eq_true_eq] at hg
    refine ⟨by omega, ?_⟩
    intro hh
    have hw := (mem_without h hsp s).mp (mem_append_left _ hp)
    exact hw.1 (h.eq_of_hash_eq hs' hmm hh)
  have hn : findFrom tx (e.sorted.drop m) m = some pre.length := by
    rw [hd, findFrom_append m hsm, length_drop]
    congr 1
    omega
  have he : e.sorted.eraseIdx pre.length = pre ++ post := by
    rw [hsp, eraseIdx_append_of_length_le (le_refl _), Nat.sub_self, eraseIdx_cons_zero]
  have hk : ∀ s ∈ pre ++ post, s.hash ≠ tx.hash := by
    intro s hs hh
    obtain ⟨hne, hs'⟩ := (mem_without h hsp s).mp hs
    exact hne (h.eq_of_hash_eq hs' hmm hh)
  have hf : pre ++ post = e.sorted.filter (·.hash ≠ tx.hash) := by
    rw [hsp, ← filter_eq_self.mpr fun s hs => decide_eq_true (hk s hs)]
    simp
  refine ⟨⟨e.list.erase tx.hash, pre ++ post⟩, ?_, wf_without h hsp, mem_without h hsp, hf⟩
  rw [delete, hlk]
  simp only [hr, ok_bind, hn, he]

inductive Call where
  | add (tx : TxTracker)
  | delete (tx : TxTracker)

def call (e : TxSortedList) : Call → Outcome WorkerError TxSortedList
  | .add tx => do
      let r ← e.add tx
      .ok r.2
  | .delete tx => do
      let r ← e.delete tx
      .ok r.2

/-- The transactions that should be in the list, in the order in which they were added. -/
def Call.listed (txs : List TxTracker) : Call → List TxTracker
  | .add tx => if ∃ s ∈ txs, s.hash = tx.hash then txs else txs ++ [tx]
  | .delete tx => txs.filter (·.hash ≠ tx.hash)

/-- The list has the transactions; those with the same price keep their order. -/
structure Lists (e : TxSortedList) (txs : List TxTracker) : Prop where
  wf : e.WF
  stable : ∀ price, e.sorted.filter (·.gasPrice = price) = txs.filter (·.gasPrice = price)

variable {txs : List TxTracker}

lemma Lists.mem_iff (h : e.Lists txs) (t : TxTracker) : t ∈ e.sorted ↔ t ∈ txs := by
  have hm : t ∈ e.sorted.filter (·.gasPrice = t.gasPrice) ↔
      t ∈ txs.filter (·.gasPrice = t.gasPrice) := by rw [h.stable]
  simpa using hm

lemma Lists.lookup (h : e.Lists txs) (tx : TxTracker) :
    (∃ s ∈ txs, s.hash = tx.hash) ↔ ∃ s, e.list.lookup tx.hash = some s := by
  constructor
  · rintro ⟨s, hs, hh⟩
    exact ⟨s, hh ▸ (h.wf.mem_iff s).mp ((h.mem_iff s).mpr hs)⟩
  rintro ⟨s, hs⟩
  have hh := h.wf.lookup_hash _ s hs
  exact ⟨s, (h.mem_iff s).mp ((h.wf.mem_iff s).mpr (hh ▸ hs)), hh⟩

lemma Lists.call (h : e.Lists txs) (c : Call) :
    ∃ e', e.call c = .ok e' ∧ e'.Lists (c.listed txs) := by
  cases c with
  | add tx =>
    cases hl : e.list.lookup tx.hash with
    | some s =>
      refine ⟨e, ?_, ?_⟩
      · rw [TxSortedList.call, add, hl, ok_bind]
      · rwa [Call.listed, if_pos ((h.lookup tx).mpr ⟨s, hl⟩)]
    | none =>
      obtain ⟨e', had, hw, -, pre, post, hsp, hr, hlw⟩ := add_of_new h.wf hl
      refine ⟨e', by rw [TxSortedList.call, had, ok_bind], hw, fun price => ?_⟩
      rw [Call.listed, if_neg (by rw [h.lookup, hl]; nofun), filter_append, ← h.stable,
        hr, hsp]
      have ha : tx.gasPrice = price → post.filter (·.gasPrice = price) = [] := by
        rintro rfl
        exact filter_eq_nil_iff.mpr fun s hs => by simpa using (hlw s hs).ne
      by_cases hp : tx.gasPrice = price
      · simp [hp, ha hp]
      · simp [hp]
  | delete tx =>
    cases hl : e.list.lookup tx.hash with
    | none =>
      refine ⟨e, ?_, ?_⟩
      · rw [TxSortedList.call, delete, hl, ok_bind]
      · have ho : ∀ s ∈ txs, s.hash ≠ tx.hash := by
          intro s hs hh
          obtain ⟨t, ht⟩ := (h.lookup tx).mp ⟨s, hs, hh⟩
          cases hl.symm.trans ht
        rwa [Call.listed, filter_eq_self.mpr fun s hs => decide_eq_true (ho s hs)]
    | some s =>
      have hh := h.wf.lookup_hash _ s hl
      obtain ⟨e', hd, hw, -, hr⟩ := delete_of_mem h.wf ((h.wf.mem_iff s).mpr (hh ▸ hl))
      have hm : e.delete tx = e.delete s := by rw [delete, delete, hh]
      refine ⟨e', by rw [TxSortedList.call, hm, hd, ok_bind], hw, fun price => ?_⟩
      rw [hr, hh, filter_comm, h.stable, filter_comm, Call.listed]

/-- After any calls the list has the transactions that were added and not deleted, in descending
order of the gas price and then of their addition; and a listed one can be deleted. -/
theorem lists_of_calls (calls : List Call) : ∃ e, calls.foldlM call new = .ok e ∧ e.Lists
    (calls.foldl Call.listed []) ∧ (e.sorted.map (·.hash)).Nodup ∧ ∀ tx ∈ e.sorted, ∃ e', e.delete
    tx = .ok (true, e') ∧ e'.WF ∧ e'.sorted = e.sorted.filter (·.hash ≠ tx.hash) := by
  have hr : ∀ (e : TxSortedList) (txs : List TxTracker), e.Lists txs →
      ∃ e', calls.foldlM call e = .ok e' ∧ e'.Lists (calls.foldl Call.listed txs) := by
    induction calls with
    | nil => exact fun e txs h => ⟨e, rfl, h⟩
    | cons c calls ih =>
      intro e txs h
      obtain ⟨e₁, hca, h₁⟩ := h.call c
      rw [foldlM_cons, hca, ok_bind, foldl_cons]
      exact ih e₁ _ h₁
  obtain ⟨e, hcl, hl⟩ := hr new [] ⟨wf_new, fun _ => rfl⟩
  refine ⟨e, hcl, hl, ?_, fun tx htx => ?_⟩
  · exact Nodup.map_on (fun _ hs _ ht => hl.wf.eq_of_hash_eq hs ht) hl.wf.nodup
  · obtain ⟨e', hd, hwf, -, hsr⟩ := delete_of_mem hl.wf htx
    exact ⟨e', hd, hwf, hsr⟩

end TxSortedList

end EthdaNode.Sequencer
