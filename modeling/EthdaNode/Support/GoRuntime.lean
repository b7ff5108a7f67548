import Mathlib.Data.List.Infix
import Mathlib.Tactic.Ring

/-!
# Calls, slices and loops of a Go program

A call of a Go function returns a value or an error, or it panics. `Outcome`
adds a fourth case, a loop that was cut off before its end, so that loops can
be written with a bound on the number of iterations and termination is a
theorem: enough iterations never end in `hang`.

Slice and index expressions panic outside their bounds. The upper bound used
here is the length of the slice.
-/

namespace Go

open List

inductive Outcome (ε α : Type) where
  | ok (a : α)
  | err (e : ε)
  | panic
  | hang
  deriving DecidableEq, Repr

variable {ε α β σ ρ : Type}

namespace Outcome

/-- Run a call and continue with its value; anything else ends the caller. -/
protected def bind (x : Outcome ε α) (f : α → Outcome ε β) : Outcome ε β :=
  match x with
  | ok a => f a
  | err e => err e
  | panic => panic
  | hang => hang

instance : Monad (Outcome ε) where
  pure := ok
  bind := Outcome.bind

/-- Return an error through `fmt.Errorf` or unchanged. -/
def mapErr {ε' : Type} (f : ε → ε') (x : Outcome ε α) : Outcome ε' α :=
  match x with
  | ok a => ok a
  | err e => err (f e)
  | panic => panic
  | hang => hang

/-- A call that returns a value or an error, with its error passed on as `f`
of it. -/
def ofExcept {ε' : Type} (f : ε' → ε) (x : Except ε' α) : Outcome ε α :=
  match x with
  | .ok a => ok a
  | .error e => err (f e)

variable {ε' : Type}

@[simp] lemma ofExcept_ok (f : ε' → ε) (a : α) : ofExcept f (.ok a) = ok a := rfl

@[simp] lemma ofExcept_ok_iff {f : ε' → ε} {x : Except ε' α} {a : α} :
    ofExcept f x = ok a ↔ x = .ok a := by
  cases x <;> simp [ofExcept]

@[simp] lemma pure_eq_ok (a : α) : (pure a : Outcome ε α) = ok a := rfl

@[simp] lemma ok_bind (a : α) (f : α → Outcome ε β) : (ok a >>= f) = f a := rfl

@[simp] lemma err_bind (e : ε) (f : α → Outcome ε β) : (err e >>= f) = err e := rfl

variable (f : α → Outcome ε β)

@[simp] lemma panic_bind : ((panic : Outcome ε α) >>= f) = panic := rfl

@[simp] lemma hang_bind : ((hang : Outcome ε α) >>= f) = hang := rfl

variable {f : α → Outcome ε β} {x : Outcome ε α}

lemma bind_ok_iff {b : β} : (x >>= f) = ok b ↔ ∃ a, x = ok a ∧ f a = ok b := by
  cases x <;> simp

lemma ok_of_bind {b : β} (h : (x >>= f) = ok b) : ∃ a, x = ok a ∧ f a = ok b := bind_ok_iff.mp h

lemma bind_hang_iff : (x >>= f) = hang ↔ x = hang ∨ ∃ a, x = ok a ∧ f a = hang := by
  cases x <;> simp

@[simp] lemma mapErr_ok (f : ε → ε') (a : α) : mapErr f (ok a) = ok a := rfl

@[simp] lemma mapErr_ok_iff {f : ε → ε'} {x : Outcome ε α} {a : α} :
    mapErr f x = ok a ↔ x = ok a := by
  cases x <;> simp [mapErr]

/-- The call returned to its caller, with a value or with an error. -/
def Returns (x : Outcome ε α) : Prop := x ≠ panic ∧ x ≠ hang

lemma returns_ok (a : α) : Returns (ok a : Outcome ε α) := by simp [Returns]

lemma returns_err (e : ε) : Returns (err e : Outcome ε α) := by simp [Returns]

lemma returns_ofExcept (f : ε' → ε) (x : Except ε' α) : Returns (ofExcept f x) := by
  cases x with
  | ok a => exact returns_ok a
  | error e => exact returns_err (f e)

lemma Returns.bind (hx : x.Returns) (hf : ∀ a, x = ok a → (f a).Returns) : (x >>= f).Returns := by
  cases x with
  | ok a => exact hf a rfl
  | err e => exact returns_err e
  | panic => exact absurd rfl hx.1
  | hang => exact absurd rfl hx.2

/-- There is a result, and it has the property. -/
def any (p : α → Bool) : Outcome ε α → Bool
  | ok a => p a
  | _ => false

lemma any_true_iff {p : α → Bool} : x.any p = true ↔ ∃ a, x = ok a ∧ p a = true := by
  cases x <;> simp [any]

instance : LawfulMonad (Outcome ε) :=
  LawfulMonad.mk' (Outcome ε) (fun x => by cases x <;> rfl) (fun _ _ => rfl)
    (fun x _ _ => by cases x <;> rfl)

variable {xs : List α}

lemma mapM_eq_ok {g : α → β} (h : ∀ x ∈ xs, f x = ok (g x)) : xs.mapM f = ok (xs.map g) := by
  induction xs with
  | nil => rfl
  | cons x xs ih =>
    rw [mapM_cons, h x mem_cons_self, ok_bind, ih fun y hy => h y (mem_cons_of_mem _ hy), ok_bind]
    rfl

/-- A loop over a list whose iterations succeed and keep an invariant. -/
lemma foldlM_invariant {f : σ → α → Outcome ε σ} {P : σ → Prop} (hf : ∀ s, ∀ x ∈ xs, P s → ∃ s',
    f s x = ok s' ∧ P s') {s : σ} (hs : P s) : ∃ s', xs.foldlM f s = ok s' ∧ P s' := by
  induction xs generalizing s with
  | nil => exact ⟨s, rfl, hs⟩
  | cons x xs ih =>
    obtain ⟨s', ht, hs'⟩ := hf s x mem_cons_self hs
    rw [foldlM_cons, ht, ok_bind]
    exact ih (fun s x hx => hf s x (mem_cons_of_mem _ hx)) hs'

/-- A loop over a list that succeeds keeps what its iterations keep. -/
lemma foldlM_ok_invariant {f : σ → α → Outcome ε σ} {P : σ → Prop} (hf : ∀ s x s', P s → f s x =
    ok s' → P s') {s s' : σ} (h : xs.foldlM f s = ok s') (hs : P s) : P s' := by
  induction xs generalizing s with
  | nil =>
    rw [foldlM_nil, pure_eq_ok, ok.injEq] at h
    exact h ▸ hs
  | cons x xs ih =>
    rw [foldlM_cons, bind_ok_iff] at h
    obtain ⟨s₁, ht, h⟩ := h
    exact ih h (hf s x s₁ hs ht)

lemma foldlM_append {step : List β → α → Outcome ε (List β)} {bytes : α → List β} (xs : List α)
    (acc : List β) (h : ∀ acc, ∀ x ∈ xs, step acc x = ok (acc ++ bytes x)) : xs.foldlM step acc = ok
    (acc ++ xs.flatMap bytes) := by
  induction xs generalizing acc with
  | nil => simp
  | cons x xs ih =>
    rw [foldlM_cons, h acc x mem_cons_self, ok_bind, ih _ fun acc y hy => h acc y (mem_cons_of_mem _
      hy), flatMap_cons, append_assoc]

end Outcome

open Outcome

/-! ## Slices -/

/-- A byte slice. Its length is an `int`, which bounds it. -/
structure GoBytes where
  bytes : List UInt8
  length_lt : bytes.length < 2 ^ 63
  deriving DecidableEq

def slice (xs : List α) (lo hi : ℕ) : Outcome ε (List α) :=
  if lo ≤ hi ∧ hi ≤ xs.length then ok ((xs.take hi).drop lo) else panic

def index (xs : List α) (i : ℕ) : Outcome ε α :=
  match xs[i]? with
  | some a => ok a
  | none => panic

variable {xs : List α} {lo hi : ℕ}

lemma slice_ok_iff {ys : List α} : (slice xs lo hi : Outcome ε (List α)) = ok ys ↔
    (lo ≤ hi ∧ hi ≤ xs.length) ∧ (xs.take hi).drop lo = ys := by
  unfold slice
  split
  · simp_all
  · simp only [reduceCtorEq, false_iff]
    tauto

lemma slice_panic_iff :
    (slice xs lo hi : Outcome ε (List α)) = panic ↔ hi < lo ∨ xs.length < hi := by
  unfold slice
  split
  · simp; omega
  · simp; omega

lemma slice_cases (xs : List α) (lo hi : ℕ) : (∃ ys, (slice xs lo hi : Outcome ε (List α)) =
    ok ys) ∨ (slice xs lo hi : Outcome ε (List α)) = panic := by
  unfold slice
  split
  · exact .inl ⟨_, rfl⟩
  · exact .inr rfl

/-- A slice expression that cuts out the middle of a concatenation. -/
lemma slice_append (pre mid post : List α) (hl : lo = pre.length)
    (hh : hi = pre.length + mid.length) :
    (slice (pre ++ (mid ++ post)) lo hi : Outcome ε (List α)) = ok mid := by
  subst hl hh
  rw [slice_ok_iff]
  refine ⟨⟨by omega, by simp⟩, ?_⟩
  rw [← append_assoc, ← length_append, take_left, drop_left]

lemma slice_of_drop {a b c : List α} {n : ℕ} (h : xs.drop n = a ++ (b ++ c)) (hn : n ≤ xs.length)
    (hl : lo = n + a.length) (hh : hi = lo + b.length) :
    (slice xs lo hi : Outcome ε (List α)) = ok b := by
  have hx : xs = (xs.take n ++ a) ++ (b ++ c) := by
    rw [append_assoc, ← h, take_append_drop]
  have hln : (xs.take n ++ a).length = n + a.length := by simp [hn]
  rw [hx]
  apply slice_append
  · omega
  · omega

lemma index_ok_iff {i : ℕ} {a : α} : (index xs i : Outcome ε α) = ok a ↔ xs[i]? = some a := by
  unfold index
  cases xs[i]? <;> simp

lemma index_append (pre post : List α) (a : α) {i : ℕ} (hi : i = pre.length) :
    (index (pre ++ (a :: post)) i : Outcome ε α) = ok a := by
  subst hi
  rw [index_ok_iff]
  simp

lemma index_of_drop {a c : List α} {x : α} {n i : ℕ} (h : xs.drop n = a ++ (x :: c))
    (hn : n ≤ xs.length) (hi : i = n + a.length) : (index xs i : Outcome ε α) = ok x := by
  have hx : xs = (xs.take n ++ a) ++ (x :: c) := by
    rw [append_assoc, ← h, take_append_drop]
  have hl : (xs.take n ++ a).length = n + a.length := by simp [hn]
  rw [hx]
  apply index_append
  omega

/-- What one execution of a loop body asks for: another iteration, or a return
from the function around the loop. -/
inductive Next (σ ρ : Type) where
  | next (s : σ)
  | stop (r : ρ)
  deriving DecidableEq, Repr

/-- The loop `for cond { body }` followed by `done`, for at most `fuel`
iterations. -/
def loop (cond : σ → Bool) (body : σ → Outcome ε (Next σ ρ)) (done : σ → ρ) : ℕ → σ → Outcome ε ρ
  | 0, s => if cond s then hang else ok (done s)
  | fuel + 1, s =>
    if cond s then
      body s >>= fun
        | .next s' => loop cond body done fuel s'
        | .stop r => ok r
    else ok (done s)

/-- The loop comes from `s` to the head of an iteration at `s'`. -/
inductive Reaches (cond : σ → Bool) (body : σ → Outcome ε (Next σ ρ)) :
    σ → σ → Prop where
  | refl (s : σ) : Reaches cond body s s
  | step {s s' s'' : σ} (hcond : cond s = true)
      (hbody : body s = ok (.next s')) (hrest : Reaches cond body s' s'') :
      Reaches cond body s s''

section
variable {cond : σ → Bool} {body : σ → Outcome ε (Next σ ρ)} {done : σ → ρ} {fuel : ℕ} {s : σ}

/-- A loop that is not cut off does the same from every state it comes to. -/
lemma Reaches.loop_eq {s' : σ} (h : Reaches cond body s s')
    (hf : loop cond body done fuel s ≠ hang) :
    ∃ fuel', loop cond body done fuel s = loop cond body done fuel' s' := by
  induction h generalizing fuel with
  | refl s => exact ⟨fuel, rfl⟩
  | step hc hb _ ih =>
    cases fuel with
    | zero => simp [loop, hc] at hf
    | succ fuel =>
      simp only [loop, hc, hb, ok_bind, if_true] at hf ⊢
      exact ih hf

lemma loop_eq_body (hc : cond s = true) (hf : loop cond body done fuel s ≠ hang) : ∃ fuel',
    loop cond body done fuel s =
    body s >>= fun | .next s' => loop cond body done fuel' s' | .stop r => ok r := by
  cases fuel with
  | zero => simp [loop, hc] at hf
  | succ fuel => exact ⟨fuel, by simp only [loop, hc, if_true]⟩

/-- How a loop ends: at a state where the condition fails, or in the body of an iteration that is
reached. -/
lemma loop_cases (fuel : ℕ) (s : σ) (hf : loop cond body done fuel s ≠ hang) :
    ∃ s', Reaches cond body s s' ∧ ((cond s' = false ∧ loop cond body done fuel s = ok (done s')) ∨
    (cond s' = true ∧ ((∃ r, body s' = ok (.stop r) ∧ loop cond body done fuel s = ok r) ∨
    (∃ e, body s' = err e ∧ loop cond body done fuel s = err e) ∨
    (body s' = panic ∧ loop cond body done fuel s = panic)))) := by
  induction fuel generalizing s with
  | zero =>
    by_cases hc : cond s = true
    · simp [loop, hc] at hf
    · exact ⟨s, .refl s, .inl ⟨by simpa using hc, by simp [loop, hc]⟩⟩
  | succ fuel ih =>
    by_cases hc : cond s = true
    · cases hb : body s with
      | ok n =>
        cases n with
        | next s₁ =>
          have hl : loop cond body done (fuel + 1) s = loop cond body done fuel s₁ := by
            simp [loop, hc, hb]
          rw [hl] at hf ⊢
          obtain ⟨s', hr, he⟩ := ih s₁ hf
          exact ⟨s', .step hc hb hr, he⟩
        | stop r =>
          exact ⟨s, .refl s, .inr ⟨hc, .inl ⟨r, hb, by simp [loop, hc, hb]⟩⟩⟩
      | err e =>
        exact ⟨s, .refl s, .inr ⟨hc, .inr (.inl ⟨e, hb, by simp [loop, hc, hb]⟩)⟩⟩
      | panic =>
        exact ⟨s, .refl s, .inr ⟨hc, .inr (.inr ⟨hb, by simp [loop, hc, hb]⟩)⟩⟩
      | hang => simp [loop, hc, hb] at hf
    · exact ⟨s, .refl s, .inl ⟨by simpa using hc, by simp [loop, hc]⟩⟩

lemma loop_ok_iff {r : ρ} (hf : loop cond body done fuel s ≠ hang) :
    loop cond body done fuel s = ok r ↔ ∃ s', Reaches cond body s s' ∧
    ((cond s' = false ∧ done s' = r) ∨ (cond s' = true ∧ body s' = ok (.stop r))) := by
  constructor
  · intro hl
    obtain ⟨s', hr, ⟨hc, he⟩ | ⟨hc, he⟩⟩ := loop_cases fuel s hf
    · rw [hl, ok.injEq] at he
      exact ⟨s', hr, .inl ⟨hc, he.symm⟩⟩
    rcases he with ⟨r', hb, he⟩ | ⟨e, _, he⟩ | ⟨_, he⟩
    · rw [hl, ok.injEq] at he
      subst he
      exact ⟨s', hr, .inr ⟨hc, hb⟩⟩
    · simp [hl] at he
    · simp [hl] at he
  · rintro ⟨s', hr, he⟩
    obtain ⟨fuel', hq⟩ := hr.loop_eq hf
    rw [hq] at hf ⊢
    rcases he with ⟨hc, hd⟩ | ⟨hc, hb⟩
    · cases fuel' <;> simp [loop, hc, hd]
    · obtain ⟨_, hl⟩ := loop_eq_body hc hf
      simp [hl, hb]

lemma loop_panic_iff (hf : loop cond body done fuel s ≠ hang) : loop cond body done fuel s =
    panic ↔ ∃ s', Reaches cond body s s' ∧ cond s' = true ∧ body s' = panic := by
  constructor
  · intro hl
    obtain ⟨s', hr, ⟨_, he⟩ | ⟨hc, he⟩⟩ := loop_cases fuel s hf
    · simp [hl] at he
    rcases he with ⟨r', _, he⟩ | ⟨e, _, he⟩ | ⟨hb, _⟩
    · simp [hl] at he
    · simp [hl] at he
    · exact ⟨s', hr, hc, hb⟩
  · rintro ⟨s', hr, hc, hb⟩
    obtain ⟨fuel', hq⟩ := hr.loop_eq hf
    rw [hq] at hf ⊢
    obtain ⟨_, hl⟩ := loop_eq_body hc hf
    simp [hl, hb]

/-- A loop whose iterations strictly advance a position that the condition
bounds by `len` needs at most one iteration for each position left. -/
lemma loop_ne_hang (pos : σ → ℕ) (len : ℕ) (hb : ∀ s, cond s = true → pos s < len) (ha : ∀ s s',
    cond s = true → body s = ok (.next s') → pos s < pos s') (hd : ∀ s, cond s = true →
    body s ≠ hang) (hf : len - pos s ≤ fuel) : loop cond body done fuel s ≠ hang := by
  induction fuel generalizing s with
  | zero =>
    have hc : ¬cond s = true := by
      intro h
      have := hb s h
      omega
    simp [loop, hc]
  | succ fuel ih =>
    by_cases hc : cond s = true
    · simp only [loop, hc, if_true]
      intro hh
      rcases bind_hang_iff.mp hh with h | ⟨n, hok, hrest⟩
      · exact hd s hc h
      cases n with
      | stop r => simp at hrest
      | next s' =>
        have hl := ha s s' hc hok
        have := hb s hc
        exact ih (s := s') (by omega) hrest
    · simp [loop, hc]
end

end Go
