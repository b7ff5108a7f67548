import EthdaNode.Support.Fallible

/-!
# Computations with named points of failure

Every call of a computation has a name, and a pattern says which of them fail. If the calls
that are made without failures are known, the outcome under any pattern is known: the
computation succeeds if none of these calls fails, and ends at the first one that does.
-/

namespace Fallible

variable {π σ ε α β γ : Type} {fs : π → Bool}

/-- A call with a name, which fails if the pattern says so. -/
def point (fails : π → Bool) (failure : π → ε) (p : π) (x : Fallible σ ε α) : Fallible σ ε α :=
  if fails p then fail (failure p) else x

/-- Without failures the computation ends with a value and a state as `Q` says; a failure of a call
leaves a state as `E` says. -/
def Calls (fails : π → Bool) (points : List π) (x : Fallible σ ε α) (s : σ)
    (Q : α → σ → Prop) (E : σ → Prop) : Prop :=
  ((∀ p ∈ points, fails p = false) → ∃ a s', x s = (.ok a, s') ∧ Q a s') ∧
    ((∃ p ∈ points, fails p = true) → ∃ e s', x s = (.error e, s') ∧ E s')

namespace Calls

variable {points points' : List π} {x : Fallible σ ε α} {s : σ}
  {Q Q' : α → σ → Prop} {E F : σ → Prop} {R : β → σ → Prop}

lemma weaken (h : Calls fs points x s Q E) (hQ : (∀ p ∈ points, fs p = false) → ∀ a s', Q a s' →
    Q' a s') (hE : (∃ p ∈ points, fs p = true) → ∀ s', E s' → F s') : Calls fs points x s Q' F := by
  refine ⟨fun hn => ?_, fun hs => ?_⟩
  · obtain ⟨a, s', hx, ha⟩ := h.1 hn
    exact ⟨a, s', hx, hQ hn a s' ha⟩
  · obtain ⟨e, s', hx, hs'⟩ := h.2 hs
    exact ⟨e, s', hx, hE hs s' hs'⟩

lemma ret {a : α} (h : Q a s) : Calls fs ([] : List π) (pure a : Fallible σ ε α) s Q E :=
  ⟨fun _ => ⟨a, s, rfl, h⟩, fun hs => by simp at hs⟩

lemma point {flr : π → ε} {p : π} {a : α} {s' : σ} (hx : x s = (.ok a, s')) (hQ : Q a s')
    (hE : E s) : Calls fs [p] (Fallible.point fs flr p x) s Q E := by
  refine ⟨fun hn => ?_, fun hs => ?_⟩
  · have hp : fs p = false := hn p List.mem_cons_self
    refine ⟨a, s', ?_, hQ⟩
    rw [Fallible.point, if_neg (by simp [hp])]
    exact hx
  · obtain ⟨p', hm, hp⟩ := hs
    obtain rfl := List.mem_singleton.mp hm
    exact ⟨flr p', s, by rw [Fallible.point, if_pos hp]; rfl, hE⟩

/-- The second computation can rely on the calls of the first one. -/
lemma bind {f : α → Fallible σ ε β} (hx : Calls fs points x s Q E)
    (hf : (∀ p ∈ points, fs p = false) → ∀ a s', Q a s' → Calls fs points' (f a) s' R E) :
    Calls fs (points ++ points') (x >>= f) s R E := by
  refine ⟨fun hn => ?_, fun hsm => ?_⟩
  · have hs : ∀ p ∈ points, fs p = false := fun p hp =>
      hn p (List.mem_append_left _ hp)
    obtain ⟨a, s', hr, ha⟩ := hx.1 hs
    rw [bind_of_ok hr]
    exact (hf hs a s' ha).1 fun p hp => hn p (List.mem_append_right _ hp)
  by_cases hs : ∃ p ∈ points, fs p = true
  · obtain ⟨e, s', hr, hs'⟩ := hx.2 hs
    exact ⟨e, s', bind_of_error hr f, hs'⟩
  have hs : ∀ p ∈ points, fs p = false := fun p hp =>
    Bool.eq_false_iff.mpr fun ht => hs ⟨p, hp, ht⟩
  obtain ⟨a, s', hr, ha⟩ := hx.1 hs
  rw [bind_of_ok hr]
  refine (hf hs a s' ha).2 ?_
  obtain ⟨p, hm, hp⟩ := hsm
  rcases List.mem_append.mp hm with hm | hm
  · rw [hs p hm] at hp
    cases hp
  · exact ⟨p, hm, hp⟩

/-- One computation for each element, with an invariant that knows what is left. -/
lemma forEach {f : γ → Fallible σ ε Unit} {po : γ → List π} {I : List γ → σ → Prop} {cs : List γ}
    (hs : ∀ c cs s, I (c :: cs) s → Calls fs (po c) (f c) s (fun _ => I cs) E) (h : I cs s) : Calls
    fs (cs.flatMap po) (Fallible.forEach f cs) s (fun _ => I []) E := by
  induction cs generalizing s with
  | nil => exact ret h
  | cons c cs ih =>
    rw [List.flatMap_cons]
    exact (hs c cs s h).bind fun _ _ s' hs' => ih hs'

end Calls

end Fallible
