import EthdaNode.Support.GoRuntime

/-!
# Loops that read a buffer item by item

Many decoders are one loop over a buffer: the state holds a position, and an
iteration reads one item that starts there. If an iteration goes on exactly
when some item is a prefix of what is left, then the states the loop comes to
are exactly those of the sequences of items that are a prefix of the buffer.
-/

namespace Go.StreamReader

open Go.Outcome List

variable {ε σ ρ ι β : Type}

def unread (data : List β) (pos : σ → ℕ) (s : σ) : Bool := pos s < data.length

/-- Items that can be read one after the other, starting in `s`. -/
def Readable (enabled : σ → ι → Prop) (apply : σ → ι → σ) : σ → List ι → Prop
  | _, [] => True
  | s, it :: its => enabled s it ∧ Readable enabled apply (apply s it) its

lemma readable_append (enabled : σ → ι → Prop) (apply : σ → ι → σ) (s : σ) (its its' : List ι) :
    Readable enabled apply s (its ++ its') ↔ Readable enabled apply s its ∧
    Readable enabled apply (its.foldl apply s) its' := by
  induction its generalizing s with
  | nil => simp [Readable]
  | cons it its ih => rw [cons_append, Readable, Readable, foldl_cons, ih, and_assoc]

/-- Items with a prefix-free encoding are determined by the bytes of their
sequence, as long as the sequence is shorter than `bound`. -/
lemma flatMap_inj {bytes : ι → List β} {bound : ℕ} (hn : ∀ it, bytes it ≠ [])
    (hf : ∀ it it' rest rest', (bytes it ++ rest).length < bound →
    bytes it ++ rest = bytes it' ++ rest' → it = it' ∧ rest = rest')
    {its its' : List ι} (hl : (its.flatMap bytes).length < bound)
    (h : its.flatMap bytes = its'.flatMap bytes) : its = its' := by
  induction its generalizing its' with
  | nil =>
    cases its' with
    | nil => rfl
    | cons it' its' =>
      rw [flatMap_nil, flatMap_cons, eq_comm, append_eq_nil_iff] at h
      exact absurd h.1 (hn it')
  | cons it its ih =>
    rw [flatMap_cons] at h hl
    rcases its' with _ | ⟨it', its'⟩
    · rw [flatMap_nil, append_eq_nil_iff] at h
      exact absurd h.1 (hn it)
    rw [flatMap_cons] at h
    obtain ⟨rfl, hr⟩ := hf it it' _ _ hl h
    rw [length_append] at hl
    rw [ih (by omega) hr]

/-- An iteration goes on exactly by reading an item at the position. -/
structure Reads (data : List β) (pos : σ → ℕ) (body : σ → Outcome ε (Next σ ρ)) (bytes : ι → List β)
    (enabled : σ → ι → Prop) (apply : σ → ι → σ) : Prop where
  nonempty : ∀ it, bytes it ≠ []
  pos_apply : ∀ s it, bytes it <+: data.drop (pos s) → pos (apply s it) = pos s + (bytes it).length
  step_iff : ∀ s s', pos s < data.length → (body s = ok (.next s') ↔
      ∃ it, enabled s it ∧ bytes it <+: data.drop (pos s) ∧ s' = apply s it)

section
variable {d : List β} {pos : σ → ℕ} {body : σ → Outcome ε (Next σ ρ)}
  {bytes : ι → List β} {enabled : σ → ι → Prop} {apply : σ → ι → σ}

section
variable (h : Reads d pos body bytes enabled apply)
include h

lemma drop_apply {s : σ} {it : ι} {rest : List β}
    (hp : bytes it ++ rest <+: d.drop (pos s)) : rest <+: d.drop (pos (apply s it)) := by
  obtain ⟨tail, ht⟩ := hp
  rw [h.pos_apply s it ⟨rest ++ tail, by rw [← ht, append_assoc]⟩,
    ← drop_drop, ← ht, append_assoc, drop_left]
  exact prefix_append rest tail

lemma pos_foldl {s : σ} {its : List ι} (hp : its.flatMap bytes <+: d.drop (pos s)) :
    pos (its.foldl apply s) = pos s + (its.flatMap bytes).length := by
  induction its generalizing s with
  | nil => simp
  | cons it its ih =>
    rw [flatMap_cons] at hp
    rw [foldl_cons, ih (drop_apply h hp), h.pos_apply s it ((prefix_append _ _).trans hp),
      flatMap_cons, length_append]
    omega

lemma advance {s s' : σ} (hu : unread d pos s = true) (hb : body s = ok (.next s')) :
    pos s < pos s' := by
  have hl : pos s < d.length := by simpa [unread] using hu
  obtain ⟨it, _, hp, rfl⟩ := (h.step_iff s s' hl).mp hb
  rw [h.pos_apply s it hp]
  have := length_pos_of_ne_nil (h.nonempty it)
  omega
end

lemma prefix_drop_append {xs ys : List β} {n : ℕ} (h : xs <+: d.drop n)
    (h' : ys <+: d.drop (n + xs.length)) : xs ++ ys <+: d.drop n := by
  obtain ⟨rest, hr⟩ := h
  obtain ⟨rest', he⟩ := h'
  refine ⟨rest', ?_⟩
  have hd : d.drop (n + xs.length) = rest := by rw [← drop_drop, ← hr, drop_left]
  rw [append_assoc, he, hd, hr]

lemma reaches_iff (h : Reads d pos body bytes enabled apply) (s s' : σ) :
    Reaches (unread d pos) body s s' ↔ ∃ its, Readable enabled apply s its ∧
    its.flatMap bytes <+: d.drop (pos s) ∧ s' = its.foldl apply s := by
  constructor
  · intro hrc
    induction hrc with
    | refl s => exact ⟨[], trivial, by simp, rfl⟩
    | @step s s₁ s₂ hc hb _ ih =>
      have hl : pos s < d.length := by simpa [unread] using hc
      obtain ⟨it, he, hp, rfl⟩ := (h.step_iff s s₁ hl).mp hb
      obtain ⟨its, hr, hs, rfl⟩ := ih
      refine ⟨it :: its, ⟨he, hr⟩, ?_, rfl⟩
      rw [h.pos_apply s it hp] at hs
      rw [flatMap_cons]
      exact prefix_drop_append hp hs
  rintro ⟨its, hr, hp, rfl⟩
  induction its generalizing s with
  | nil => exact .refl s
  | cons it its ih =>
    rw [flatMap_cons] at hp
    have hf : bytes it <+: d.drop (pos s) := (prefix_append _ _).trans hp
    have hl : pos s < d.length := by
      by_contra hge
      rw [drop_of_length_le (by omega), prefix_nil] at hf
      exact h.nonempty it hf
    refine .step (by simpa [unread] using hl)
      ((h.step_iff _ _ hl).mpr ⟨it, hr.1, hf, rfl⟩)
      (ih _ hr.2 (drop_apply h hp))

lemma reaches_end_iff (h : Reads d pos body bytes enabled apply) (s s' : σ) :
    (Reaches (unread d pos) body s s' ∧ unread d pos s' = false) ↔ ∃ its, Readable enabled apply s
    its ∧ its.flatMap bytes = d.drop (pos s) ∧ s' = its.foldl apply s := by
  rw [reaches_iff h]
  constructor
  · rintro ⟨⟨its, hr, hp, rfl⟩, hn⟩
    refine ⟨its, hr, ?_, rfl⟩
    apply hp.eq_of_length_le
    have hl : d.length ≤ pos (its.foldl apply s) := by simpa [unread] using hn
    rw [pos_foldl h hp] at hl
    rw [length_drop]
    omega
  rintro ⟨its, hr, he, rfl⟩
  have hp : its.flatMap bytes <+: d.drop (pos s) := by rw [he]
  refine ⟨⟨its, hr, hp, rfl⟩, ?_⟩
  have hln := congrArg List.length he
  rw [length_drop] at hln
  have hs := pos_foldl h hp
  simp only [unread, decide_eq_false_iff_not]
  omega
end

end Go.StreamReader
