import EthdaNode.Support.Fallible

/-!
# Computations that do the same

Two computations agree if, from every state, they reach the same state, and either fail with the
same error or return values that are related. Agreement is kept by composition, so that two
runs of one program whose inputs differ where it does not matter need not be run twice.
-/

namespace Fallible

variable {σ ε α β γ δ : Type} (R : α → β → Prop)

def Related : Except ε α → Except ε β → Prop
  | .ok a, .ok b => R a b
  | .error e, .error e' => e = e'
  | _, _ => False

/-- From the state, the computations reach the same state and return related values. -/
def AgreeAt (s : σ) (x : Fallible σ ε α) (y : Fallible σ ε β) : Prop :=
  (x s).2 = (y s).2 ∧ Related R (x s).1 (y s).1

def Agree (x : Fallible σ ε α) (y : Fallible σ ε β) : Prop := ∀ s, AgreeAt R s x y

lemma related_refl {R : α → α → Prop} (h : ∀ a, R a a) (r : Except ε α) : Related R r r := by
  cases r with
  | ok a => exact h a
  | error e => exact (rfl : e = e)

namespace Agree

variable {R : α → β → Prop} {S : γ → δ → Prop}

lemma refl (x : Fallible σ ε α) : Agree Eq x x := by
  intro s
  exact ⟨rfl, related_refl (fun _ => rfl) _⟩

variable {x : Fallible σ ε α} {y : Fallible σ ε β}

lemma mono {R' : α → β → Prop} (h : Agree R x y) (hR : ∀ a b, R a b → R' a b) : Agree R' x y := by
  intro s
  obtain ⟨hs, hr⟩ := h s
  refine ⟨hs, ?_⟩
  revert hr
  cases (x s).1 with
  | ok a =>
    cases (y s).1 with
    | ok b => exact hR a b
    | error e => exact id
  | error e =>
    cases (y s).1 with
    | _ => exact id

lemma ret {a : α} {b : β} (h : R a b) :
    Agree R (pure a : Fallible σ ε α) (pure b : Fallible σ ε β) :=
  fun _ => ⟨rfl, h⟩

lemma fail (e : ε) : Agree R (Fallible.fail e : Fallible σ ε α) (Fallible.fail e) :=
  fun _ => ⟨rfl, rfl⟩

lemma when {x y : Fallible σ ε Unit} (c : Bool) (h : Agree Eq x y) :
    Agree Eq (Fallible.when c x) (Fallible.when c y) := by
  cases c with
  | false => exact refl _
  | true => exact h

variable {f : α → Fallible σ ε γ}

lemma bind {g : β → Fallible σ ε δ} (hxy : Agree R x y)
    (hf : ∀ a b, R a b → Agree S (f a) (g b)) : Agree S (x >>= f) (y >>= g) := by
  intro s
  obtain ⟨hs, hr⟩ := hxy s
  rcases hx : x s with ⟨rx, sx⟩
  rcases hy : y s with ⟨ry, sy⟩
  rw [hx, hy] at hs hr
  obtain rfl : sx = sy := hs
  match rx, ry, hr with
  | .ok a, .ok b, hr =>
    rw [AgreeAt, bind_of_ok hx, bind_of_ok hy]
    exact hf a b hr sx
  | .error e, .error e', hr =>
    rw [AgreeAt, bind_of_error hx, bind_of_error hy]
    exact ⟨rfl, hr⟩

lemma bind_same (x : Fallible σ ε α) {g : α → Fallible σ ε δ} (hf : ∀ a, Agree S (f a) (g a)) :
    Agree S (x >>= f) (x >>= g) :=
  (refl x).bind fun a _ ha => ha ▸ hf a

end Agree

end Fallible
