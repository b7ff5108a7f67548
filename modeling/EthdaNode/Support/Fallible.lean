import Mathlib.Tactic.Common

/-!
# Computations that keep their state when they fail

A computation on a state that returns a value or fails. What it did to the state before it
failed stays done, so that it can be said what a failure at any point leaves behind. A
triple gives a precondition, a postcondition for the value, and what holds after a failure.
-/

/-- A computation on a state; a failure keeps the state that it has reached. -/
def Fallible (σ ε α : Type) : Type := σ → Except ε α × σ

namespace Fallible

open Fallible

variable {σ ε α β : Type}

instance : Monad (Fallible σ ε) where
  pure a := fun s => (.ok a, s)
  bind x f := fun s =>
    match x s with
    | (.ok a, s) => f a s
    | (.error e, s) => (.error e, s)

def look (f : σ → α) : Fallible σ ε α := fun s => (.ok (f s), s)

def modify (f : σ → σ) : Fallible σ ε Unit := fun s => (.ok (), f s)

def fail (e : ε) : Fallible σ ε α := fun s => (.error e, s)

/-- After a failure the state is changed before the failure is passed on. -/
def onError (x : Fallible σ ε α) (f : σ → σ) : Fallible σ ε α :=
  fun s =>
    match x s with
    | (.ok a, s) => (.ok a, s)
    | (.error e, s) => (.error e, f s)

def when (c : Bool) (x : Fallible σ ε Unit) : Fallible σ ε Unit :=
  if c then x else pure ()

def forEach (f : β → Fallible σ ε Unit) : List β → Fallible σ ε Unit
  | [] => pure ()
  | b :: bs => do
      f b
      forEach f bs

/-! ## Single runs -/

variable {x : Fallible σ ε α} {s s' : σ}

lemma bind_of_ok {a : α} (h : x s = (.ok a, s')) (f : α → Fallible σ ε β) :
    (x >>= f) s = f a s' := by
  change (match x s with
    | (.ok a, s) => f a s
    | (.error e, s) => (.error e, s)) = f a s'
  rw [h]

lemma bind_of_error {e : ε} (h : x s = (.error e, s')) (f : α → Fallible σ ε β) :
    (x >>= f) s = (.error e, s') := by
  change (match x s with
    | (.ok a, s) => f a s
    | (.error e, s) => (.error e, s)) = (.error e, s')
  rw [h]

lemma bind_eq_ok {f : α → Fallible σ ε β} {s'' : σ} {b : β} (h : (x >>= f) s = (.ok b, s'')) :
    ∃ a s', x s = (.ok a, s') ∧ f a s' = (.ok b, s'') := by
  rcases hx : x s with ⟨result, s'⟩
  cases result with
  | ok a =>
    rw [bind_of_ok hx] at h
    exact ⟨a, s', rfl, h⟩
  | error e =>
    rw [bind_of_error hx] at h
    cases h

lemma onError_of_ok {a : α} (h : x s = (.ok a, s')) (f : σ → σ) : x.onError f s = (.ok a, s') := by
  rw [onError, h]

lemma onError_of_error {e : ε} (h : x s = (.error e, s')) (f : σ → σ) :
    x.onError f s = (.error e, f s') := by
  rw [onError, h]

/-- What holds before, after a value and after a failure. -/
def Triple (P : σ → Prop) (x : Fallible σ ε α) (Q : α → σ → Prop) (E : σ → Prop) : Prop :=
  ∀ s, P s → (∀ a, (x s).1 = .ok a → Q a (x s).2) ∧ (∀ e, (x s).1 = .error e → E (x s).2)

variable {P P' E F : σ → Prop} {Q Q' : α → σ → Prop} {R : β → σ → Prop}
  {x : Fallible σ ε α} {f : α → Fallible σ ε β}

namespace Triple

lemma weaken (h : Triple P' x Q' F) (hP : ∀ s, P s → P' s)
    (hQ : ∀ a s, Q' a s → Q a s) (hE : ∀ s, F s → E s) : Triple P x Q E := by
  intro s hs
  obtain ⟨ho, hr⟩ := h s (hP s hs)
  exact ⟨fun a ha => hQ a _ (ho a ha), fun e he => hE _ (hr e he)⟩

lemma ret (a : α) (h : ∀ s, P s → Q a s) : Triple P (pure a : Fallible σ ε α) Q E := by
  intro s hs
  refine ⟨fun b hb => ?_, fun e he => by cases he⟩
  cases hb
  exact h s hs

lemma look {g : σ → α} (h : ∀ s, P s → Q (g s) s) : Triple P (look g : Fallible σ ε α) Q E := by
  intro s hs
  refine ⟨fun b hb => ?_, fun e he => by cases he⟩
  cases hb
  exact h s hs

lemma modify {g : σ → σ} {Q : Unit → σ → Prop} (h : ∀ s, P s → Q () (g s)) :
    Triple P (modify g : Fallible σ ε Unit) Q E := by
  intro s hs
  exact ⟨fun _ _ => h s hs, fun e he => by cases he⟩

lemma fail (e : ε) (h : ∀ s, P s → E s) : Triple P (fail e : Fallible σ ε α) Q E := by
  intro s hs
  exact ⟨fun a ha => (by cases ha), fun _ _ => h s hs⟩

lemma bind (hx : Triple P x Q E) (hf : ∀ a, Triple (Q a) (f a) R E) : Triple P (x >>= f) R E := by
  intro s hs
  obtain ⟨ho, he⟩ := hx s hs
  rcases hr : x s with ⟨result, s'⟩
  rw [hr] at ho he
  cases result with
  | ok a =>
    rw [bind_of_ok hr]
    exact hf a s' (ho a rfl)
  | error e =>
    rw [bind_of_error hr]
    exact ⟨fun b hb => (by cases hb), fun _ _ => he e rfl⟩

lemma when {c : Bool} {x : Fallible σ ε Unit} {Q : Unit → σ → Prop} (hx : c = true → Triple P x Q E)
    (hc : c = false → ∀ s, P s → Q () s) : Triple P (when c x) Q E := by
  cases c with
  | true => exact hx rfl
  | false => exact ret () (hc rfl)

lemma onError {g : σ → σ} (h : Triple P x Q F) (hg : ∀ s, F s → E (g s)) :
    Triple P (x.onError g) Q E := by
  intro s hs
  obtain ⟨ho, herr⟩ := h s hs
  rcases hr : x s with ⟨result, s'⟩
  rw [hr] at ho herr
  cases result with
  | ok a =>
    rw [onError_of_ok hr]
    exact ⟨fun b hb => ho b hb, fun e he => (by cases he)⟩
  | error e =>
    rw [onError_of_error hr]
    exact ⟨fun b hb => (by cases hb), fun _ _ => hg s' (herr e rfl)⟩

lemma forEach {g : β → Fallible σ ε Unit} {bs : List β}
    (h : ∀ b ∈ bs, Triple P (g b) (fun _ => P) E) : Triple P (forEach g bs) (fun _ => P) E := by
  induction bs with
  | nil => exact ret () fun _ hs => hs
  | cons b bs ih =>
    exact bind (h b List.mem_cons_self) fun _ =>
      ih fun c hc => h c (List.mem_cons_of_mem b hc)

end Triple

end Fallible
