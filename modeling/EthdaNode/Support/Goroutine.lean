import Mathlib.Logic.Function.Basic
import Mathlib.Tactic.Common

/-!
# Goroutines on a shared state

`Code` is the code of a goroutine, cut at the points where it touches the shared
state: an action waits until it is ready and then runs without interruption.
What comes from outside the program, like the answer of a database, is any value
of its type. `Reaches` lets the goroutines of a process take their actions in any
order; each of them runs its body again when it has come to its end.

Programs are verified with a rely-guarantee outline. `Outline.Wp` is the weakest
precondition of a piece of code against the changes that the other goroutines can
make, and `Outline.Valid.sound` puts the goroutines together.
-/

namespace Go

open Function

/-- The code of a goroutine that returns an `α`, on the shared state `σ`. A faulting action ends the
process, `halt` stops for ever, and the procedures `π` may call each other. -/
inductive Code (σ π ε α : Type) : Type 1 where
  | ret (a : α)
  | exit (fault : ε)
  | halt
  | answer {β : Type} (next : β → Code σ π ε α)
  | action {β : Type} (ready : σ → Bool) (f : σ → Except ε (β × σ)) (next : β → Code σ π ε α)
  | call (p : π) (next : Code σ π ε α)

variable {σ π ε ι κ τ α β : Type}

/-! ## Faults -/

variable {f : α → Except ε β} {x : Except ε α} {b : β}

lemma except_bind_ok_iff : (x >>= f) = .ok b ↔ ∃ a, x = .ok a ∧ f a = .ok b := by
  cases x with
  | _ => simp [Bind.bind, Except.bind]

lemma ok_of_bind (h : (x >>= f) = .ok b) : ∃ a, x = .ok a ∧ f a = .ok b := except_bind_ok_iff.mp h

lemma except_bind_error_iff {e : ε} :
    (x >>= f) = .error e ↔ x = .error e ∨ ∃ a, x = .ok a ∧ f a = .error e := by
  cases x with
  | _ => simp [Bind.bind, Except.bind]

lemma error_of_bind {e : ε} {P : Prop} (h : (x >>= f) = .error e) (hx : x = .error e → P)
    (hf : ∀ a, f a = .error e → P) : P := by
  rcases except_bind_error_iff.mp h with h | ⟨a, -, h⟩
  · exact hx h
  · exact hf a h

lemma ok_pair_inj {a b : α} {t u : β} (h : (.ok (a, t) : Except ε (α × β)) = .ok (b, u)) :
    a = b ∧ t = u :=
  Prod.mk.inj (Except.ok.inj h)

/-- What a guarded update that succeeded read, returned and wrote. -/
lemma bind_pair_inj {γ : Type} {g : α → β} {t : α → γ} {u : γ}
    (h : (x >>= fun a => .ok (g a, t a)) = .ok (b, u)) : ∃ a, x = .ok a ∧ g a = b ∧ t a = u := by
  obtain ⟨a, hx, h⟩ := ok_of_bind h
  exact ⟨a, hx, ok_pair_inj h⟩

/-! ## Code -/

namespace Code

protected def bind : Code σ π ε α → (α → Code σ π ε β) → Code σ π ε β
  | ret a, k => k a
  | exit fault, _ => exit fault
  | halt, _ => halt
  | answer next, k => answer fun b => (next b).bind k
  | action ready f next, k => action ready f fun b => (next b).bind k
  | call p next, k => call p (next.bind k)

lemma bind_ret (code : Code σ π ε α) : code.bind ret = code := by
  induction code with
  | ret | exit | halt => rfl
  | answer next ih => exact congrArg answer (funext ih)
  | action rd f next ih => exact congrArg (action rd f) (funext ih)
  | call p next ih => exact congrArg (call p) ih

instance : Monad (Code σ π ε) where
  pure := ret
  bind := Code.bind

/-- A value from outside the program. -/
def ask (β : Type) : Code σ π ε β := answer ret

def act (f : σ → Except ε (α × σ)) : Code σ π ε α := action (fun _ => true) f ret

def update (f : σ → α × σ) : Code σ π ε α := act fun s => .ok (f s)

def look (f : σ → Except ε α) : Code σ π ε α := act fun s => (f s).map fun a => (a, s)

def modify (f : σ → σ) : Code σ π ε Unit := update fun s => ((), f s)

def await (ready : σ → Bool) : Code σ π ε Unit := action ready (fun s => .ok ((), s)) ret

def run (p : π) : Code σ π ε Unit := call p (ret ())

def when (c : Bool) (code : Code σ π ε Unit) : Code σ π ε Unit :=
  if c then code else ret ()

def forEach (f : α → Code σ π ε Unit) : List α → Code σ π ε Unit
  | [] => ret ()
  | a :: as => do
      f a
      forEach f as

/-- All actions of the code stay within a relation, and it has expected faults only.
It calls no procedure. -/
def Within (R : σ → σ → Prop) (expected : ε → Prop) : Code σ π ε α → Prop
  | ret _ => True
  | exit fault => expected fault
  | halt => True
  | answer next => ∀ b, (next b).Within R expected
  | action _ f next => (∀ s fault, f s = .error fault → expected fault) ∧
      (∀ s b s', f s = .ok (b, s') → R s s') ∧ ∀ b, (next b).Within R expected
  | call _ _ => False

section
variable {R : σ → σ → Prop} {ex : ε → Prop} {code : Code σ π ε α}

lemma Within.bind {k : α → Code σ π ε β} (h : code.Within R ex) (hk : ∀ a, (k a).Within R ex) :
    Within R ex (code >>= k) := by
  induction code with
  | ret a => exact hk a
  | exit fault => exact h
  | halt => exact h
  | answer next ih => exact fun b => ih b (h b)
  | action rd f next ih => exact ⟨h.1, h.2.1, fun b => ih b (h.2.2 b)⟩
  | call p next ih => exact h

lemma Within.mono {R' : σ → σ → Prop} {expected' : ε → Prop} (h : code.Within R ex) (hR : ∀ s s',
    R s s' → R' s s') (he : ∀ fault, ex fault → expected' fault) : code.Within R' expected' := by
  induction code with
  | ret a => trivial
  | exit fault => exact he fault h
  | halt => trivial
  | answer next ih => exact fun b => ih b (h b)
  | action rd f next ih =>
    exact ⟨fun s fault hf => he fault (h.1 s fault hf),
      fun s b s' hf => hR s s' (h.2.1 s b s' hf), fun b => ih b (h.2.2 b)⟩
  | call p next ih => exact h

lemma within_action {rd : σ → Bool} {f : σ → Except ε (α × σ)}
    (hl : ∀ s fault, f s = .error fault → ex fault) (hf : ∀ s a s', f s = .ok (a, s') → R s s') :
    (action rd f ret : Code σ π ε α).Within R ex :=
  ⟨hl, hf, fun _ => trivial⟩

lemma within_update {f : σ → α × σ} (hf : ∀ s, R s (f s).2) :
    (update f : Code σ π ε α).Within R ex := by
  refine within_action (fun s fault hl => ?_) fun s a s' h => ?_
  · cases hl
  · obtain ⟨-, rfl⟩ := ok_pair_inj h
    exact hf s

lemma within_modify {f : σ → σ} (hf : ∀ s, R s (f s)) : (modify f : Code σ π ε Unit).Within R ex :=
  within_update hf

lemma within_look (hr : ∀ s, R s s) {f : σ → Except ε α} (hf : ∀ s fault, f s = .error fault →
    ex fault) : (look f : Code σ π ε α).Within R ex := by
  refine within_action (fun s fault h => ?_) fun s a s' h => ?_
  · cases hl : f s with
    | error e =>
      rw [hl] at h
      exact Except.error.inj h ▸ hf s e hl
    | ok a =>
      rw [hl] at h
      cases h
  cases hl : f s with
  | error e =>
    rw [hl] at h
    cases h
  | ok b =>
    rw [hl] at h
    cases h
    exact hr s

lemma within_await (hr : ∀ s, R s s) (rd : σ → Bool) :
    (await rd : Code σ π ε Unit).Within R ex := by
  refine within_action (fun s fault hf => ?_) fun s a s' h => ?_
  · cases hf
  · cases h
    exact hr s

lemma within_ask (β : Type) : (ask β : Code σ π ε β).Within R ex := fun _ => trivial

lemma within_when {c : Bool} {code : Code σ π ε Unit} (h : code.Within R ex) :
    (when c code).Within R ex := by
  cases c with
  | false => trivial
  | true => exact h

lemma within_forEach {f : α → Code σ π ε Unit} (hf : ∀ a, (f a).Within R ex) (as : List α) :
    (forEach f as).Within R ex := by
  induction as with
  | nil => trivial
  | cons a as ih => exact (hf a).bind fun _ => ih
end

end Code

/-- A process: the shared state, and what is left to do for each goroutine. -/
structure Process (σ π ε ι : Type) where
  shared : σ
  code : ι → Code σ π ε Unit

namespace Process

def Alive (c : Process σ π ε ι) : Prop := ∀ i fault, c.code i ≠ .exit fault

/-- One goroutine goes on; `allowed` says which changes of the state an action may
make. -/
inductive Step [DecidableEq ι] (proc : π → Code σ π ε Unit)
    (body : ι → Code σ π ε Unit) (allowed : σ → σ → Prop) :
    Process σ π ε ι → Process σ π ε ι → Prop where
  | answered {c : Process σ π ε ι} (i : ι) {β : Type} {next : β → Code σ π ε Unit}
      (halive : c.Alive) (hcode : c.code i = .answer next) (b : β) :
      Step proc body allowed c ⟨c.shared, update c.code i (next b)⟩
  | acted {c : Process σ π ε ι} (i : ι) {β : Type} {ready : σ → Bool}
      {f : σ → Except ε (β × σ)} {next : β → Code σ π ε Unit} {b : β} {s : σ}
      (halive : c.Alive) (hcode : c.code i = .action ready f next)
      (hrdy : ready c.shared = true) (hf : f c.shared = .ok (b, s))
      (hallow : allowed c.shared s) :
      Step proc body allowed c ⟨s, update c.code i (next b)⟩
  | faulted {c : Process σ π ε ι} (i : ι) {β : Type} {ready : σ → Bool}
      {f : σ → Except ε (β × σ)} {next : β → Code σ π ε Unit} {fault : ε}
      (halive : c.Alive) (hcode : c.code i = .action ready f next)
      (hrdy : ready c.shared = true) (hf : f c.shared = .error fault) :
      Step proc body allowed c ⟨c.shared, update c.code i (.exit fault)⟩
  | called {c : Process σ π ε ι} (i : ι) {p : π} {next : Code σ π ε Unit}
      (halive : c.Alive) (hcode : c.code i = .call p next) :
      Step proc body allowed c ⟨c.shared, update c.code i ((proc p).bind fun _ => next)⟩
  | again {c : Process σ π ε ι} (i : ι) (halive : c.Alive) (hcode : c.code i = .ret ()) :
      Step proc body allowed c ⟨c.shared, update c.code i (body i)⟩

inductive Reaches [DecidableEq ι] (proc : π → Code σ π ε Unit)
    (body : ι → Code σ π ε Unit) (allowed : σ → σ → Prop)
    (init : Process σ π ε ι → Prop) : Process σ π ε ι → Prop where
  | start {c : Process σ π ε ι} (h : init c) : Reaches proc body allowed init c
  | step {c c' : Process σ π ε ι} (h : Reaches proc body allowed init c)
      (hstep : Step proc body allowed c c') : Reaches proc body allowed init c'

section
variable [DecidableEq ι] {proc : π → Code σ π ε Unit} {body : ι → Code σ π ε Unit}
  {allowed allowed' : σ → σ → Prop} {init : Process σ π ε ι → Prop}
  {c c' : Process σ π ε ι}

lemma Step.mono (h : Step proc body allowed c c') (hi : allowed c.shared c'.shared →
    allowed' c.shared c'.shared) : Step proc body allowed' c c' := by
  cases h with
  | answered i ha hc b => exact .answered i ha hc b
  | acted i ha hc hr hf hl => exact .acted i ha hc hr hf (hi hl)
  | faulted i ha hc hr hf => exact .faulted i ha hc hr hf
  | called i ha hc => exact .called i ha hc
  | again i ha hc => exact .again i ha hc

lemma Reaches.mono (h : Reaches proc body allowed init c)
    (hi : ∀ s s', allowed s s' → allowed' s s') : Reaches proc body allowed' init c := by
  induction h with
  | start h => exact .start h
  | step h hs ih => exact ih.step (hs.mono (hi _ _))

/-- What is known of the state of every process that is reached may be used about
the actions. -/
lemma Reaches.strengthen {K : σ → Prop} (hK : ∀ c, Reaches proc body allowed init c → K c.shared)
    (h : Reaches proc body allowed init c) :
    Reaches proc body (fun s s' => allowed s s' ∧ K s') init c := by
  induction h with
  | start h => exact .start h
  | step h hs ih => exact ih.step (hs.mono fun ha => ⟨ha, hK _ (h.step hs)⟩)
end

end Process

inductive Code.Evolves (proc : π → Code σ π ε Unit) (allowed : σ → σ → Prop) :
    Code σ π ε α → σ → Code σ π ε α → σ → Prop where
  | refl (code : Code σ π ε α) (s : σ) : Evolves proc allowed code s code s
  | answer {β : Type} {next : β → Code σ π ε α} {code : Code σ π ε α} {s s' : σ} (b : β)
      (h : Evolves proc allowed (next b) s code s') :
      Evolves proc allowed (.answer next) s code s'
  | action {β : Type} {ready : σ → Bool} {f : σ → Except ε (β × σ)}
      {next : β → Code σ π ε α} {code : Code σ π ε α} {b : β} {s s₁ s' : σ}
      (hrdy : ready s = true) (hf : f s = .ok (b, s₁)) (hallow : allowed s s₁)
      (h : Evolves proc allowed (next b) s₁ code s') :
      Evolves proc allowed (.action ready f next) s code s'
  | call {p : π} {next code : Code σ π ε α} {s s' : σ}
      (h : Evolves proc allowed ((proc p).bind fun _ => next) s code s') :
      Evolves proc allowed (.call p next) s code s'

/-- An action that does not wait, where every change is allowed. -/
lemma Code.Evolves.act {proc : π → Code σ π ε Unit} {rd : σ → Bool} {f : σ → Except ε (β × σ)}
    {next : β → Code σ π ε α} {code : Code σ π ε α} {s s₁ s' : σ} (hf : (rd s, f s) = (true, .ok (b,
    s₁))) (h : Evolves proc (fun _ _ => True) (next b) s₁ code s') : Evolves proc (fun _ _ => True)
    (.action rd f next) s code s' :=
  .action (congrArg Prod.fst hf) (congrArg Prod.snd hf) trivial h

namespace Process

variable [DecidableEq ι] {proc : π → Code σ π ε Unit} {body : ι → Code σ π ε Unit}
  {allowed : σ → σ → Prop} {init : Process σ π ε ι → Prop} {c : Process σ π ε ι} {i : ι}

lemma alive_of_others (h : ∀ j, j ≠ i → ∀ fault, c.code j ≠ .exit fault)
    (hi : ∀ fault, c.code i ≠ .exit fault) : c.Alive := by
  intro j fault
  by_cases hj : j = i
  · rw [hj]
    exact hi fault
  · exact h j hj fault

variable {code : Code σ π ε Unit}

lemma Alive.update (h : c.Alive) (hc : ∀ fault, code ≠ .exit fault) (s : σ) :
    Process.Alive ⟨s, update c.code i code⟩ := by
  refine alive_of_others (i := i) (fun j hj => ?_) ?_
  · simpa only [update_of_ne hj] using h j
  · simpa only [update_self] using hc

variable {code' : Code σ π ε Unit}

lemma Reaches.evolve {s s' : σ} (h : Reaches proc body allowed init c)
    (ha : ∀ j, j ≠ i → ∀ fault, c.code j ≠ .exit fault) (hc : c.code i = code)
    (hh : c.shared = s) (he : code.Evolves proc allowed s code' s') :
    Reaches proc body allowed init ⟨s', update c.code i code'⟩ := by
  induction he generalizing c with
  | refl code s =>
    rw [← hc, update_eq_self, ← hh]
    exact h
  | answer b hn ih =>
    have hs := h.step (.answered i (alive_of_others ha fun _ => hc ▸ nofun) hc b)
    have hr := ih hs (fun j hj => ?_) (update_self i _ _) hh
    · rwa [update_idem] at hr
    · simpa only [update_of_ne hj] using ha j hj
  | action hd hf hl hn ih =>
    subst hh
    have hs := h.step (.acted i (alive_of_others ha fun _ => hc ▸ nofun) hc hd hf hl)
    have hr := ih hs (fun j hj => ?_) (update_self i _ _) rfl
    · rwa [update_idem] at hr
    · simpa only [update_of_ne hj] using ha j hj
  | call hn ih =>
    have hs := h.step (.called i (alive_of_others ha fun _ => hc ▸ nofun) hc)
    have hr := ih hs (fun j hj => ?_) (update_self i _ _) hh
    · rwa [update_idem] at hr
    · simpa only [update_of_ne hj] using ha j hj

variable (proc body allowed init c) in
/-- A process that is reached and has not ended. -/
structure Going : Prop where
  reaches : Reaches proc body allowed init c
  alive : c.Alive

lemma Going.evolve (h : Going proc body allowed init c) (i : ι) {s' : σ} (ho : c.code i = code)
    (he : code.Evolves proc allowed c.shared code' s')
    (hc : ∀ fault, code' ≠ .exit fault := by nofun) :
    Going proc body allowed init ⟨s', update c.code i code'⟩ :=
  ⟨h.reaches.evolve (fun j _ => h.alive j) ho rfl he, h.alive.update hc s'⟩

lemma Going.evolveBody (h : Going proc body allowed init c) (i : ι) {s' : σ}
    (hc : c.code i = .ret ()) (he : (body i).Evolves proc allowed c.shared code' s')
    (ho : ∀ fault, code' ≠ .exit fault := by nofun) :
    Going proc body allowed init ⟨s', update c.code i code'⟩ := by
  have ha := h.reaches.step (.again i h.alive hc)
  have hr := ha.evolve (fun j hj => ?_) (update_self i _ _) rfl he
  · rw [update_idem] at hr
    exact ⟨hr, h.alive.update ho s'⟩
  · simpa only [update_of_ne hj] using h.alive j

end Process

/-- A rely-guarantee proof of a process: the invariant, the changes that each goroutine expects of
the others, what holds when its body starts, the conditions before and after its calls, which may
share a value of `κ`, and the faults that may end the process. -/
structure Outline (σ π ε ι κ : Type) where
  allowed : σ → σ → Prop
  inv : σ → Prop
  rely : ι → σ → σ → Prop
  rely_refl : ∀ i s, rely i s s
  rely_trans : ∀ i s₁ s₂ s₃, rely i s₁ s₂ → rely i s₂ s₃ → rely i s₁ s₃
  loop : ι → σ → Prop
  pre : ι → π → κ → σ → Prop
  post : ι → π → κ → σ → Prop
  expected : ε → Prop

namespace Outline

variable (o : Outline σ π ε ι κ) (i : ι)

/-- What goroutine `i` may do to the others. -/
def Guarantee (s s' : σ) : Prop := ∀ j, j ≠ i → o.rely j s s'

/-- Goroutine `i` can run the code from the state `s`, and `Q` holds of what it
returns. -/
def Wp (Q : α → σ → Prop) : Code σ π ε α → σ → Prop
  | .ret a, s => Q a s
  | .exit fault, _ => o.expected fault
  | .halt, _ => True
  | .answer next, s => ∀ b, Wp Q (next b) s
  | .action ready f next, s => ∀ s', o.rely i s s' → o.inv s' → ready s' = true →
      (∀ fault, f s' = .error fault → o.expected fault) ∧
      ∀ b s'', f s' = .ok (b, s'') → o.allowed s' s'' →
        o.inv s'' ∧ o.Guarantee i s' s'' ∧ Wp Q (next b) s''
  | .call p next, s => ∃ x, (∀ s', o.rely i s s' → o.pre i p x s') ∧
      ∀ s', o.post i p x s' → Wp Q next s'

variable {o i} {Q Q' : α → σ → Prop} {s s' : σ} {code : Code σ π ε α}

variable {k : α → Code σ π ε β} {P : β → σ → Prop}

/-- Two pieces of code in sequence, the first one with its own postcondition. -/
lemma Wp.seq (h : o.Wp i Q code s) (hk : ∀ a s, Q a s → o.Wp i P (k a) s) :
    o.Wp i P (code >>= k) s := by
  induction code generalizing s with
  | ret a => exact hk a s h
  | exit fault => exact h
  | halt => exact h
  | answer next ih => exact fun b => ih b (h b)
  | action rd f next ih =>
    intro s' hr hv hd
    obtain ⟨hl, hn⟩ := h s' hr hv hd
    refine ⟨hl, fun b s'' hf ha => ?_⟩
    obtain ⟨hi, hg, hw⟩ := hn b s'' hf ha
    exact ⟨hi, hg, ih b hw⟩
  | call p next ih =>
    obtain ⟨x, hp, hn⟩ := h
    exact ⟨x, hp, fun s' hs => ih (hn s' hs)⟩

lemma Wp.mono (h : o.Wp i Q code s) (hQ : ∀ a s, Q a s → Q' a s) : o.Wp i Q' code s := by
  rw [← code.bind_ret]
  exact h.seq hQ

lemma Wp.stable (h : o.Wp i Q code s) (hQ : ∀ a s s', Q a s → o.rely i s s' → Q a s')
    (hr : o.rely i s s') : o.Wp i Q code s' := by
  induction code with
  | ret a => exact hQ a s s' h hr
  | exit fault => exact h
  | halt => exact h
  | answer next ih => exact fun b => ih b (h b)
  | action rd f next ih => exact fun s'' he => h s'' (o.rely_trans i _ _ _ hr he)
  | call p next ih =>
    obtain ⟨x, hp, hn⟩ := h
    exact ⟨x, fun s'' he => hp s'' (o.rely_trans i _ _ _ hr he), hn⟩

/-! ### Rules for the actions -/

variable {f : σ → Except ε (α × σ)}

variable {rd : σ → Bool}

lemma wp_action (hf : ∀ s', o.rely i s s' → o.inv s' → rd s' = true → ∀ fault, f s' = .error fault →
    o.expected fault) (h : ∀ s' a s'', o.rely i s s' → o.inv s' → rd s' = true →
    f s' = .ok (a, s'') → o.allowed s' s'' → o.inv s'' ∧ o.Guarantee i s' s'' ∧ Q a s'') :
    o.Wp i Q (.action rd f .ret) s :=
  fun s' hr hi hd => ⟨hf s' hr hi hd, fun a s'' => h s' a s'' hr hi hd⟩

lemma wp_act (hf : ∀ s', o.rely i s s' → o.inv s' → ∀ fault, f s' = .error fault → o.expected fault)
    (h : ∀ s' a s'', o.rely i s s' → o.inv s' → f s' = .ok (a, s'') → o.allowed s' s'' → o.inv s'' ∧
    o.Guarantee i s' s'' ∧ Q a s'') : o.Wp i Q (.act f) s :=
  wp_action (fun s' hr hi _ => hf s' hr hi) fun s' a s'' hr hi _ => h s' a s'' hr hi

lemma wp_update {f : σ → α × σ} (h : ∀ s', o.rely i s s' → o.inv s' → o.allowed s' (f s').2 →
    o.inv (f s').2 ∧ o.Guarantee i s' (f s').2 ∧ Q (f s').1 (f s').2) : o.Wp i Q (.update f) s := by
  refine wp_act (fun s' _ _ fault hl => ?_) fun s' a s'' hr hi hf ha => ?_
  · cases hl
  · obtain ⟨rfl, rfl⟩ := ok_pair_inj hf
    exact h s' hr hi ha

lemma wp_modify {f : σ → σ} {Q : Unit → σ → Prop} (h : ∀ s', o.rely i s s' → o.inv s' →
    o.allowed s' (f s') → o.inv (f s') ∧ o.Guarantee i s' (f s') ∧ Q () (f s')) :
    o.Wp i Q (.modify f) s :=
  wp_update h

lemma wp_look {f : σ → Except ε α}
    (hfl : ∀ s', o.rely i s s' → o.inv s' → ∀ fault, f s' = .error fault → o.expected fault)
    (h : ∀ s' a, o.rely i s s' → o.inv s' → f s' = .ok a → Q a s') : o.Wp i Q (.look f) s := by
  refine wp_act (fun s' hr hi fault hf => ?_) fun s' a s'' hr hi hf _ => ?_
  · cases hl : f s' with
    | error e =>
      rw [hl] at hf
      exact Except.error.inj hf ▸ hfl s' hr hi e hl
    | ok a =>
      rw [hl] at hf
      cases hf
  cases hl : f s' with
  | error e =>
    rw [hl] at hf
    cases hf
  | ok b =>
    rw [hl] at hf
    obtain ⟨rfl, rfl⟩ := ok_pair_inj hf
    exact ⟨hi, fun j _ => o.rely_refl j s', h s' b hr hi hl⟩

lemma wp_await {Q : Unit → σ → Prop} (h : ∀ s', o.rely i s s' → o.inv s' → rd s' = true → Q () s') :
    o.Wp i Q (.await rd) s := by
  refine wp_action (fun s' _ _ _ fault hl => ?_) fun s' a s'' hr hi hd hf _ => ?_
  · cases hl
  · cases hf
    exact ⟨hi, fun j _ => o.rely_refl j s', h s' hr hi hd⟩

lemma wp_when {c : Bool} {code : Code σ π ε Unit} {Q : Unit → σ → Prop}
    (ht : c = true → o.Wp i Q code s) (hf : c = false → Q () s) : o.Wp i Q (.when c code) s := by
  cases c with
  | false => exact hf rfl
  | true => exact ht rfl

lemma wp_ask (h : ∀ a, o.Wp i P (k a) s) : o.Wp i P (.ask α >>= k) s := h

lemma wp_run {p : π} {Q : Unit → σ → Prop} (x : κ) (hp : ∀ s', o.rely i s s' → o.pre i p x s')
    (hs : ∀ s', o.post i p x s' → Q () s') : o.Wp i Q (.run p) s :=
  ⟨x, hp, hs⟩

lemma wp_forEach {f : β → Code σ π ε Unit} {P : List β → σ → Prop}
    (hs : ∀ b bs s, P (b :: bs) s → o.Wp i (fun _ s => P bs s) (f b) s) {bs : List β}
    (h : P bs s) : o.Wp i (fun _ s => P [] s) (Code.forEach f bs) s := by
  induction bs generalizing s with
  | nil => exact h
  | cons b bs ih => exact (hs b bs s h).seq fun _ s hP => ih hP

/-- Code within a relation keeps every assertion that is stable under it and under the changes of
the others. -/
lemma wp_of_within {R : σ → σ → Prop} {P : σ → Prop} (hc : code.Within R o.expected) (hR : ∀ s s',
    R s s' → o.inv s → o.inv s' ∧ o.Guarantee i s s') (hr : ∀ s s', P s → o.rely i s s' → P s')
    (hP : ∀ s s', P s → o.inv s → R s s' → P s') (h : P s) : o.Wp i (fun _ s => P s) code s := by
  induction code generalizing s with
  | ret a => exact h
  | exit fault => exact hc
  | halt => trivial
  | answer next ih => exact fun b => ih b (hc b) h
  | action rd f next ih =>
    intro s' hs hi _
    refine ⟨fun fault => hc.1 s' fault, fun b s'' hf _ => ?_⟩
    have ht := hc.2.1 s' b s'' hf
    obtain ⟨hv, hg⟩ := hR s' s'' ht hi
    exact ⟨hv, hg, ih b (hc.2.2 b) (hP s' s'' (hr s s' h hs) hi ht)⟩
  | call p next ih => exact hc.elim

/-! ### Outlines about a part of the state -/

variable (o) in
/-- The outline is about what `view` shows of the state. -/
structure Sees (view : σ → τ) : Prop where
  inv : ∀ {s s'}, view s' = view s → o.inv s → o.inv s'
  rely : ∀ {j s s'}, view s' = view s → o.rely j s s'

variable {v : σ → τ} {P : τ → Prop}

/-- Code that changes nothing that the outline sees keeps what its goroutine knows. -/
lemma Sees.wp_within (hss : o.Sees v) (hc : code.Within (fun s s' => v s' = v s) o.expected)
    (ht : ∀ s s', P (v s) → o.rely i s s' → P (v s')) (h : P (v s)) :
    o.Wp i (fun _ s => P (v s)) code s := by
  refine wp_of_within hc (fun s s' hs hi => ⟨hss.inv hs hi, fun j _ => ?_⟩)
    ht (fun s s' hP _ hs => ?_) h
  · exact hss.rely hs
  · rw [hs]
    exact hP

lemma wp_lookKnowing {f : σ → Except ε α} (hl : ∀ s fault, f s = .error fault → o.expected fault)
    (hs : ∀ s s', P (v s) → o.rely i s s' → P (v s')) (h : P (v s)) :
    o.Wp i (fun a s => P (v s) ∧ f s = .ok a) (.look f) s :=
  wp_look (fun s' _ _ => hl s') fun s' _ hr _ hf => ⟨hs s s' h hr, hf⟩

lemma wp_actionKnowing {Q : α → τ → Prop} (hl : ∀ s fault, f s = .error fault → o.expected fault)
    (hs : ∀ s s', P (v s) → o.rely i s s' → P (v s')) (h : P (v s)) (hp : ∀ s a s', P (v s) →
    o.inv s → rd s = true → f s = .ok (a, s') → o.allowed s s' → (o.inv s' ∧ o.Guarantee i s s') ∧
    Q a (v s')) : o.Wp i (fun a s => Q a (v s)) (.action rd f .ret) s := by
  refine wp_action (fun s' _ _ _ => hl s') fun s' a s'' hr hv hd hf ha => ?_
  obtain ⟨⟨hi, hg⟩, hQ⟩ := hp s' a s'' (hs s s' h hr) hv hd hf ha
  exact ⟨hi, hg, hQ⟩

variable (o i) in
/-- Goroutine `i` sees the state through `view`, the others keep to `Rely`, and its steps keep the
invariant and disturb no other. -/
structure Party (view : σ → τ) (Inv : τ → Prop) (Rely Step : τ → τ → Prop) : Prop where
  sees : o.Sees view
  inv : ∀ {s}, o.inv s → Inv (view s)
  rely : ∀ {s s'}, o.rely i s s' → Rely (view s) (view s')
  step : ∀ {s s'}, Step (view s) (view s') → o.inv s' ∧ o.Guarantee i s s'
  expected : ∀ fault, o.expected fault

namespace Party

variable {Inv : τ → Prop} {Rely Step : τ → τ → Prop}

section
variable (hparty : o.Party i v Inv Rely Step)
include hparty

lemma keeps (hs : ∀ p p', P p → Rely p p' → P p')
    (hc : code.Within (fun s s' => v s' = v s) fun _ => True) (h : P (v s)) :
    o.Wp i (fun _ s => P (v s)) code s :=
  hparty.sees.wp_within (hc.mono (fun _ _ h => h) fun fault _ => hparty.expected fault)
    (fun _ _ hP hr => hs _ _ hP (hparty.rely hr)) h

lemma look (hs : ∀ p p', P p → Rely p p' → P p') {f : σ → Except ε α} (h : P (v s)) :
    o.Wp i (fun a s => P (v s) ∧ f s = .ok a) (.look f) s :=
  wp_lookKnowing (fun _ fault _ => hparty.expected fault)
    (fun _ _ hP hr => hs _ _ hP (hparty.rely hr)) h

lemma act (hb : ∀ p p', P p → Rely p p' → P p') (h : P (v s)) {rd : σ → Bool} {Q : α → τ → Prop}
    (hf : ∀ s a s', P (v s) → Inv (v s) → f s = .ok (a, s') → Step (v s) (v s') ∧ Q a (v s')) : o.Wp
    i (fun a s => Q a (v s)) (.action rd f .ret) s := by
  refine wp_actionKnowing (fun _ fault _ => hparty.expected fault) (fun _ _ hP hr => hb _ _ hP
    (hparty.rely hr)) h fun s a s' hP hi _ ho _ => ?_
  obtain ⟨hs, hQ⟩ := hf s a s' hP (hparty.inv hi) ho
  exact ⟨hparty.step hs, hQ⟩

lemma modify (hs : ∀ p p', P p → Rely p p' → P p') (h : P (v s)) {f : σ → σ} {Q : τ → Prop}
    (hf : ∀ s, P (v s) → Inv (v s) → Step (v s) (v (f s)) ∧ Q (v (f s))) :
    o.Wp i (fun _ s => Q (v s)) (.modify f) s := by
  refine hparty.act (Q := fun _ => Q) hs h fun s a s' hP hi ho => ?_
  cases ho
  exact hf s hP hi
end

end Party

variable (o) in
/-- The outline is a proof: the procedures and the body of every goroutine keep to
their conditions. -/
structure Valid (proc : π → Code σ π ε Unit) (body : ι → Code σ π ε Unit) :
    Prop where
  loop_stable : ∀ i s s', o.loop i s → o.rely i s s' → o.loop i s'
  proc : ∀ i p x s, o.pre i p x s → o.Wp i (fun _ s => o.post i p x s) (proc p) s
  body : ∀ i s, o.loop i s → o.Wp i (fun _ s => o.loop i s) (body i) s

variable (o) in
/-- What the outline says about a process. -/
structure Holds (c : Process σ π ε ι) : Prop where
  inv : o.inv c.shared
  wp : ∀ i, o.Wp i (fun _ s => o.loop i s) (c.code i) c.shared

lemma Holds.expected {c : Process σ π ε ι} (h : o.Holds c) {fault : ε}
    (hc : c.code i = .exit fault) : o.expected fault := by
  have hw := h.wp i
  rwa [hc] at hw

section
variable [DecidableEq ι] {proc : π → Code σ π ε Unit} {body : ι → Code σ π ε Unit}
  {c c' : Process σ π ε ι}

variable {code : Code σ π ε Unit}

lemma Holds.update (h : o.Holds c) (hc : o.Wp i (fun _ s => o.loop i s) code c.shared) :
    o.Holds ⟨c.shared, update c.code i code⟩ := by
  refine ⟨h.inv, fun j => ?_⟩
  by_cases hj : j = i
  · subst hj
    simpa only [update_self] using hc
  · simpa only [update_of_ne hj] using h.wp j

lemma Holds.act (hv : o.Valid proc body) (h : o.Holds c) (hi : o.inv s)
    (hg : o.Guarantee i c.shared s) (hc : o.Wp i (fun _ s => o.loop i s) code s) : o.Holds
    ⟨s, Function.update c.code i code⟩ := by
  refine ⟨hi, fun j => ?_⟩
  by_cases hj : j = i
  · subst hj
    simpa only [update_self] using hc
  · simp only [update_of_ne hj]
    exact (h.wp j).stable (fun _ s s' hl hr => hv.loop_stable j s s' hl hr) (hg j hj)

lemma Holds.step (hv : o.Valid proc body) (h : o.Holds c)
    (hs : Process.Step proc body o.allowed c c') : o.Holds c' := by
  cases hs with
  | answered i ha hc b =>
    have hw := h.wp i
    rw [hc] at hw
    exact h.update (hw b)
  | acted i ha hc hr hf hl =>
    have hw := h.wp i
    rw [hc] at hw
    obtain ⟨hi, hg, hn⟩ := (hw _ (o.rely_refl i _) h.inv hr).2 _ _ hf hl
    exact h.act hv hi hg hn
  | faulted i ha hc hr hf =>
    have hw := h.wp i
    rw [hc] at hw
    exact h.update ((hw _ (o.rely_refl i _) h.inv hr).1 _ hf)
  | @called i p next ha hc =>
    have hw := h.wp i
    rw [hc] at hw
    obtain ⟨x, hp, hn⟩ := hw
    have hpr := hv.proc i p x _ (hp _ (o.rely_refl i _))
    exact h.update (hpr.seq fun _ s hps => hn s hps)
  | again i ha hc =>
    have hw := h.wp i
    rw [hc] at hw
    exact h.update (hv.body i _ hw)

lemma Valid.sound (hv : o.Valid proc body) {init : Process σ π ε ι → Prop} (hi : ∀ c, init c →
    o.Holds c) (h : Process.Reaches proc body o.allowed init c) : o.Holds c := by
  induction h with
  | start h => exact hi _ h
  | step h hs ih => exact ih.step hv hs

lemma Holds.guarantee [Nonempty ι] (h : o.Holds c) (hs : Process.Step proc body o.allowed c c') :
    ∃ i, o.Guarantee i c.shared c'.shared := by
  cases hs with
  | acted i hv hc hr hf ha =>
    have hw := h.wp i
    rw [hc] at hw
    exact ⟨i, ((hw _ (o.rely_refl i _) h.inv hr).2 _ _ hf ha).2.1⟩
  | _ => exact ⟨Classical.arbitrary ι, fun j _ => o.rely_refl j _⟩

lemma Valid.keeps [Nonempty ι] (hv : o.Valid proc body) {K : σ → σ → Prop} (hr : ∀ s, K s s)
    (ht : ∀ s₁ s₂ s₃, K s₁ s₂ → K s₂ s₃ → K s₁ s₃) (hK : ∀ i s s', o.Guarantee i s s' → K s s')
    (h : o.Holds c) (hc : Process.Reaches proc body o.allowed (fun d => d = c) c') : K c.shared
    c'.shared := by
  have hh : ∀ d, Process.Reaches proc body o.allowed (fun d => d = c) d → o.Holds d := by
    refine fun d hd => hv.sound (fun e he => ?_) hd
    rw [he]
    exact h
  induction hc with
  | start h => exact h ▸ hr c.shared
  | step hd hs ih =>
    obtain ⟨i, hi⟩ := (hh _ hd).guarantee hs
    exact ht _ _ _ ih (hK i _ _ hi)
end

end Outline

end Go
