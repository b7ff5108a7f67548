import Mathlib.Tactic.Common
import Mathlib.Data.Int.Order.Basic

/-!
# A cache whose items expire

Every item has a time until which it is valid. A read finds an item only if it is still valid,
and extends its time. What is known of all items of a cache stays known whatever is read,
forgotten or cleared, so that a proof does not have to follow the times.
-/

structure TimedItem (α : Type) where
  value : α
  validTime : ℤ

structure TimedCache (κ α : Type) where
  data : κ → Option (TimedItem α)
  timeOfLiveItems : ℤ

namespace TimedCache

open Function

variable {κ α : Type} [DecidableEq κ] {P : κ → α → Prop} {c : TimedCache κ α} (timeOfLiveItems : ℤ)

def empty : TimedCache κ α := ⟨fun _ => none, timeOfLiveItems⟩

def clear (c : TimedCache κ α) : TimedCache κ α := empty c.timeOfLiveItems

def put (c : TimedCache κ α) (key : κ) (item : Option (TimedItem α)) : TimedCache κ α :=
  { c with data := Function.update c.data key item }

def set (c : TimedCache κ α) (now : ℤ) (key : κ) (value : α) : TimedCache κ α :=
  c.put key (some ⟨value, now + c.timeOfLiveItems⟩)

/-- Read the item of a key. It is removed if its time is over, and gets more time if not, by
readings of the clock. -/
def get (c : TimedCache κ α) (now later : ℤ) (key : κ) : Option α × TimedCache κ α :=
  match c.data key with
  | none => (none, c)
  | some item =>
    if item.validTime < now then (none, c.put key none)
    else (some item.value, c.set later key item.value)

def deleteOutdated (c : TimedCache κ α) (now : ℤ) : TimedCache κ α :=
  { c with data := fun key => (c.data key).filter fun item => !(item.validTime < now) }

def All (P : κ → α → Prop) (c : TimedCache κ α) : Prop :=
  ∀ key item, c.data key = some item → P key item.value

omit [DecidableEq κ] in
lemma all_empty : All P (empty timeOfLiveItems) := by
  intro key item h
  cases h

omit [DecidableEq κ] in
lemma All.mono {Q : κ → α → Prop} (h : c.All P) (hP : ∀ key vl, P key vl → Q key vl) : c.All Q :=
  fun key item hi => hP key item.value (h key item hi)

omit [DecidableEq κ] in
lemma All.clear (c : TimedCache κ α) : c.clear.All P := all_empty _

lemma All.put (h : c.All P) {key : κ} {item : Option (TimedItem α)}
    (ht : ∀ i ∈ item, P key i.value) : (c.put key item).All P := by
  intro k i hi
  change Function.update c.data key item k = some i at hi
  by_cases hk : k = key
  · subst hk
    rw [update_self] at hi
    exact ht i hi
  · rw [update_of_ne hk] at hi
    exact h k i hi

lemma All.set (h : c.All P) {key : κ} {vl : α} (hv : P key vl) (now : ℤ) :
    (c.set now key vl).All P :=
  h.put fun i hi => by
    cases hi
    exact hv

lemma All.replace {k : κ} (h : c.All fun key vl => key ≠ k → P key vl) {vl : α}
    (hv : P k vl) (now : ℤ) : (c.set now k vl).All P := by
  intro key item hi
  change Function.update c.data k _ key = some item at hi
  by_cases hk : key = k
  · subst hk
    rw [update_self] at hi
    cases hi
    exact hv
  · rw [update_of_ne hk] at hi
    exact h key item hi hk

lemma All.get (h : c.All P) (now later : ℤ) (key : κ) :
    (∀ vl ∈ (c.get now later key).1, P key vl) ∧ (c.get now later key).2.All P := by
  rw [TimedCache.get]
  rcases hi : c.data key with _ | item
  · exact ⟨nofun, h⟩
  dsimp only
  split_ifs
  · exact ⟨nofun, h.put nofun⟩
  refine ⟨fun vl hv => ?_, h.set (h key item hi) later⟩
  cases hv
  exact h key item hi

omit [DecidableEq κ] in
lemma All.deleteOutdated (h : c.All P) (now : ℤ) : (c.deleteOutdated now).All P := by
  intro key item hi
  exact h key item (Option.filter_eq_some_iff.mp hi).1

end TimedCache
