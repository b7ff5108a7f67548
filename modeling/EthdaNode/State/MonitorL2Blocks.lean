import Mathlib.Data.List.Basic
import Mathlib.Tactic.Common

/-!
# Events for new L2 blocks

`monitorNewL2Blocks` remembers the number of the last block it has sent. The number only grows, so
a block that replaces one that was sent is not noticed; and a loop that is started again begins
with the last block of that moment.
-/

namespace EthdaNode.State

open List

variable {β : Type}

/-- The blocks 1, 2, … of the state, and the loop: `lastL2BlockNumberSeen`, and `toBlockNumber` of
the cycle, which goes on while it is greater. -/
structure Monitor (β : Type) where
  blocks : List β
  seen : ℕ
  toBlockNumber : ℕ := 0
  sent : List (β × ℕ) := []

def startMonitor (blocks : List β) : Monitor β := { blocks := blocks, seen := blocks.length }

inductive MonitorEvent (β : Type) where
  | store (block : β)
  | reorg (kept : ℕ)
  | restart
  | getLastL2BlockNumber (fails : Bool)
  | getL2BlockByNumber (fails : Bool)

/-- A block that cannot be read ends the cycle. -/
def Monitor.step (s : Monitor β) : MonitorEvent β → Monitor β
  | .store block => { s with blocks := s.blocks ++ [block] }
  | .reorg kept => { s with blocks := s.blocks.take kept }
  | .restart => { s with seen := s.blocks.length, toBlockNumber := 0 }
  | .getLastL2BlockNumber fails =>
    if fails ∨ s.seen < s.toBlockNumber ∨ s.seen ≥ s.blocks.length then s
    else { s with toBlockNumber := s.blocks.length }
  | .getL2BlockByNumber fails =>
    if s.seen < s.toBlockNumber then match if fails then none else s.blocks[s.seen]? with
      | some block => { s with seen := s.seen + 1, sent := s.sent ++ [(block, s.seen + 1)] }
      | none => { s with toBlockNumber := 0 }
    else s

def Monitor.run (s : Monitor β) (events : List (MonitorEvent β)) : Monitor β :=
  events.foldl Monitor.step s

/-- A reorg leaves the blocks that were sent, and the loop is started again when all were. -/
def MonitorEvent.Harmless (s : Monitor β) : MonitorEvent β → Prop
  | .reorg kept => s.seen ≤ kept
  | .restart => s.seen = s.blocks.length
  | _ => True

def Monitor.Harmless : Monitor β → List (MonitorEvent β) → Prop
  | _, [] => True
  | s, event :: events => event.Harmless s ∧ (s.step event).Harmless events

/-- The events are the blocks after the first `start` with their numbers, up to the one that was
seen last. -/
structure Monitor.Inv (start : ℕ) (s : Monitor β) : Prop where
  start_le : start ≤ s.seen
  seen_le : s.seen ≤ s.blocks.length
  sent_eq : s.sent = ((s.blocks.zipIdx 1).take s.seen).drop start

lemma take_zipIdx {blocks : List β} {n kept : ℕ} (h : n ≤ kept) :
    ((blocks.take kept).zipIdx 1).take n = (blocks.zipIdx 1).take n := by
  apply List.ext_getElem?
  intro i
  grind

variable {s : Monitor β} {start : ℕ}

lemma Monitor.Inv.send (h : s.Inv start) {block : β} (hb : s.blocks[s.seen]? = some block) :
    Monitor.Inv start { s with seen := s.seen + 1, sent := s.sent ++ [(block, s.seen + 1)] } := by
  obtain ⟨hl, he⟩ := List.getElem?_eq_some_iff.mp hb
  have hn : s.seen < (s.blocks.zipIdx 1).length := by simpa using hl
  refine ⟨Nat.le_succ_of_le h.start_le, hl, ?_⟩
  simp only
  rw [h.sent_eq, take_succ_eq_append_getElem hn, drop_append_of_le_length]
  · simp [he, Nat.add_comm]
  · rw [length_take, length_zipIdx]
    exact Nat.le_min.mpr ⟨h.start_le, Nat.le_trans h.start_le h.seen_le⟩

lemma Monitor.Inv.step (h : s.Inv start) {event : MonitorEvent β} (he : event.Harmless s) :
    (s.step event).Inv start := by
  rcases event with block | kept | _ | fails | fails
  · refine ⟨h.start_le, ?_, ?_⟩
    · simpa [Monitor.step] using Nat.le_succ_of_le h.seen_le
    · rw [Monitor.step, zipIdx_append, take_append_of_le_length (by simpa using h.seen_le)]
      exact h.sent_eq
  · refine ⟨h.start_le, ?_, ?_⟩
    · rw [Monitor.step, length_take]
      exact Nat.le_min.mpr ⟨he, h.seen_le⟩
    · rw [Monitor.step, take_zipIdx he]
      exact h.sent_eq
  · rw [Monitor.step, ← show s.seen = s.blocks.length from he]
    exact ⟨h.start_le, h.seen_le, h.sent_eq⟩
  · rw [Monitor.step]
    split_ifs
    · exact h
    · exact ⟨h.start_le, h.seen_le, h.sent_eq⟩
  rw [Monitor.step]
  split
  · split
    · next hb =>
      cases fails with
      | true => cases hb
      | false => exact h.send hb
    · exact ⟨h.start_le, h.seen_le, h.sent_eq⟩
  · exact h

lemma Monitor.Inv.run (h : s.Inv start) {events : List (MonitorEvent β)} (he : s.Harmless events) :
    (s.run events).Inv start := by
  induction events generalizing s with
  | nil => exact h
  | cons event events ih => exact ih (h.step he.1) he.2

/-! ## A cycle without failures -/

def reads (n : ℕ) : List (MonitorEvent β) := replicate n (.getL2BlockByNumber false)

lemma Monitor.harmless_reads (s : Monitor β) (n : ℕ) : s.Harmless (reads n) := by
  induction n generalizing s with
  | zero => trivial
  | succ n ih => exact ⟨trivial, ih _⟩

lemma Monitor.run_reads (s : Monitor β) {n : ℕ} (hn : s.toBlockNumber ≤ s.seen + n) :
    (s.run (reads n)).blocks = s.blocks ∧ s.seen ≤ (s.run (reads n)).seen ∧
    (s.run (reads n)).toBlockNumber ≤ (s.run (reads n)).seen ∧
    (s.toBlockNumber ≤ s.blocks.length → s.toBlockNumber ≤ (s.run (reads n)).seen) := by
  induction n generalizing s with
  | zero => exact ⟨rfl, Nat.le_refl _, hn, fun _ => hn⟩
  | succ n ih =>
    have hst : s.run (reads (n + 1)) = (s.step (.getL2BlockByNumber false)).run (reads n) := rfl
    rw [hst, Monitor.step]
    split
    · next hlt =>
      cases hb : s.blocks[s.seen]? with
      | none =>
        have hln := List.getElem?_eq_none_iff.mp hb
        obtain ⟨hl, hs, ht, -⟩ := ih { s with toBlockNumber := 0 } (Nat.zero_le _)
        exact ⟨hl, hs, ht, fun he => absurd hln (by omega)⟩
      | some block =>
        obtain ⟨hl, hs, ht⟩ := ih { s with seen := s.seen + 1, sent := _ } (by simp only; omega)
        exact ⟨hl, Nat.le_of_succ_le hs, ht⟩
    · next hg => exact ih s (by omega)

end EthdaNode.State
