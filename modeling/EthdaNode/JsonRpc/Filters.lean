import Mathlib.Tactic.Common

/-!
# Filters

The goroutine of a filter waits for a signal and then sends the enqueued data. A poll of a filter
returns what was stored since the last poll.
-/

namespace EthdaNode.JsonRpc

open List

/-! ## Subscriptions -/

inductive Sender where
  | idle | locked | waiting | popping
  deriving DecidableEq

/-- A filter, with the calls that have pushed and not yet broadcast, and the history. -/
structure Subscription (α : Type) where
  queue : List α := []
  signals : ℕ := 0
  sender : Sender := .idle
  enqueued : List α := []
  sent : List α := []

variable {α : Type}

/-- A broadcast wakes the goroutine only while it waits. -/
def Sender.wake : Sender → Sender
  | waiting => popping
  | sender => sender

inductive Subscription.Quiet : Subscription α → Subscription α → Prop
  | broadcast {s n} : s.signals = n + 1 → Quiet s { s with signals := n, sender := s.sender.wake }
  | lock {s} : s.sender = .idle → Quiet s { s with sender := .locked }
  | wait {s} : s.sender = .locked → Quiet s { s with sender := .waiting }
  | pop {s d rest} : s.sender = .popping → s.queue = d :: rest →
    Quiet s { s with queue := rest, sent := s.sent ++ [d] }
  | empty {s} : s.sender = .popping → s.queue = [] → Quiet s { s with sender := .idle }

def Subscription.push (s : Subscription α) (d : α) : Subscription α :=
  { s with queue := s.queue ++ [d], signals := s.signals + 1, enqueued := s.enqueued ++ [d] }

inductive Subscription.Reachable : Subscription α → Prop
  | start : Reachable {}
  | push {s} (d : α) : Reachable s → Reachable (s.push d)
  | quiet {s t} : Reachable s → Quiet s t → Reachable t

/-- Every run without a new call comes to `goal`. -/
inductive Subscription.Inevitable (goal : Subscription α → Prop) : Subscription α → Prop
  | now {s} : goal s → Inevitable goal s
  | later {s} : (∃ t, Quiet s t) → (∀ t, Quiet s t → Inevitable goal t) → Inevitable goal s

open Subscription

/-- What is enqueued will be sent, in this order and once. -/
def Subscription.Delivers (s : Subscription α) : Prop :=
  Inevitable (fun t => t.sent = s.sent ++ s.queue) s

lemma Subscription.Quiet.history {s t : Subscription α} (h : Quiet s t) :
    t.enqueued = s.enqueued ∧ t.sent ++ t.queue = s.sent ++ s.queue := by
  cases h with
  | pop _ hq => simp [hq]
  | _ => exact ⟨rfl, rfl⟩

lemma Subscription.Reachable.history {s : Subscription α} (h : Reachable s) :
    s.sent ++ s.queue = s.enqueued := by
  induction h with
  | start => rfl
  | push d _ ih => rw [Subscription.push, ← ih, append_assoc]
  | quiet _ hq ih => rw [hq.history.2, hq.history.1, ih]

lemma inevitable_of_popping {all : List α} {s : Subscription α} (hs : s.sender = .popping)
    (ha : s.sent ++ s.queue = all) : Inevitable (fun t => t.sent = all) s := by
  induction hn : s.queue.length + s.signals generalizing s with
  | zero =>
    have hq : s.queue = [] := length_eq_zero_iff.mp (by omega)
    exact .now (by simpa [hq] using ha)
  | succ n ih =>
    rcases hq : s.queue with _ | ⟨d, rest⟩
    · exact .now (by simpa [hq] using ha)
    refine .later ⟨_, .pop hs hq⟩ fun t ht => ?_
    refine ih ?_ (ht.history.2.trans ha) ?_
    · cases ht <;> simp_all [Sender.wake]
    · cases ht <;> simp_all <;> omega

/-- The wake-up is lost, or can still be lost. -/
def Subscription.Deaf (s : Subscription α) : Prop :=
  s.queue ≠ [] ∧ (s.sender = .idle ∨ s.sender = .locked ∨ s.sender = .waiting ∧ s.signals = 0)

lemma not_deaf_of_inevitable {all : List α} {s : Subscription α} (ha : s.sent ++ s.queue = all)
    (h : Inevitable (fun t => t.sent = all) s) : ¬s.Deaf := by
  induction h with
  | now hg =>
    rintro ⟨hn, _⟩
    rw [← hg] at ha
    exact hn (append_right_eq_self.mp ha)
  | @later s hex _ ih =>
    rintro ⟨hn, hi | hl | ⟨hw, hs⟩⟩
    · exact ih _ (.lock hi) ha ⟨hn, .inr (.inl rfl)⟩
    · cases hs : s.signals with
      | zero => exact ih _ (.wait hl) ha ⟨hn, .inr (.inr ⟨rfl, hs⟩)⟩
      | succ n => exact ih _ (.broadcast hs) ha ⟨hn, .inr (.inl (by simp [hl, Sender.wake]))⟩
    · obtain ⟨t, ht⟩ := hex
      cases ht <;> simp_all

/-- What was sent and what is queued is always what was enqueued. All of it will be sent unless the
goroutine does not wait yet, or waits and no call is left that will wake it. -/
theorem subscription_delivers_iff {s : Subscription α} (h : Reachable s) :
    s.sent ++ s.queue = s.enqueued ∧ (s.Delivers ↔ ¬s.Deaf) := by
  refine ⟨h.history, not_deaf_of_inevitable rfl, fun hd => ?_⟩
  by_cases hne : s.queue = []
  · exact .now (by simp [hne])
  cases hs : s.sender with
  | popping => exact inevitable_of_popping hs rfl
  | waiting =>
    have hsg : s.signals ≠ 0 := fun h0 => hd ⟨hne, .inr (.inr ⟨hs, h0⟩)⟩
    obtain ⟨n, hn⟩ := Nat.exists_eq_succ_of_ne_zero hsg
    refine .later ⟨_, .broadcast hn⟩ fun t ht => inevitable_of_popping ?_ ht.history.2
    cases ht <;> simp_all [Sender.wake]
  | idle => exact absurd ⟨hne, .inl hs⟩ hd
  | locked => exact absurd ⟨hne, .inr (.inl hs)⟩ hd

def firstPush : Subscription ℕ := Subscription.push {} 7

theorem subscription_delivers_iff_push :
    [] ++ firstPush.queue = [7] ∧ (firstPush.Delivers ↔ ¬firstPush.Deaf) :=
  subscription_delivers_iff (.push 7 .start)

/-- The broadcast comes before the goroutine waits. -/
theorem firstPush_not_delivered : Reachable { firstPush with signals := 0 } ∧
    ¬Subscription.Delivers { firstPush with signals := 0 } := by
  have hr : Reachable { firstPush with signals := 0 } := .quiet (.push 7 .start) (.broadcast rfl)
  exact ⟨hr, fun h => not_deaf_of_inevitable rfl h ⟨by decide, .inl rfl⟩⟩

/-! ## Polls -/

/-- A filter that is polled: the clock, the items with their `created_at`, what the polls returned
and how many polls are between the query and `UpdateFilterLastPoll`. -/
structure Polled (α : Type) where
  now : ℕ
  lastPoll : ℕ
  stored : List (α × ℕ) := []
  returned : List α := []
  polls : ℕ := 0

def createFilter (now : ℕ) : Polled α := { now := now, lastPoll := now }

inductive PollEvent (α : Type) where
  | tick
  | store (item : α)
  | query (fails : Bool)
  | update

/-- The first half of `GetFilterChanges` is the query for the items since the last poll, which the
second half sets to the time of the update. A failed query ends the poll. -/
def Polled.step (s : Polled α) : PollEvent α → Polled α
  | .tick => { s with now := s.now + 1 }
  | .store item => { s with stored := s.stored ++ [(item, s.now)] }
  | .query true => s
  | .query false => { s with
      returned := s.returned ++ (s.stored.filter (s.lastPoll ≤ ·.2)).map Prod.fst
      polls := s.polls + 1 }
  | .update => if s.polls = 0 then s else { s with lastPoll := s.now, polls := s.polls - 1 }

def Polled.run (s : Polled α) (events : List (PollEvent α)) : Polled α := events.foldl Polled.step s

def Polled.AllReturned (s : Polled α) : Prop := ∀ x ∈ s.stored, x.1 ∈ s.returned

/-- Nothing is stored between the query of a poll and its update. -/
def Polled.StoresApart : Polled α → List (PollEvent α) → Prop
  | _, [] => True
  | s, event :: events =>
    (∀ item, event = .store item → s.polls = 0) ∧ (s.step event).StoresApart events

structure Polled.Inv (s : Polled α) : Prop where
  lastPoll_le : s.lastPoll ≤ s.now
  all : s.polls ≠ 0 → s.AllReturned
  each : ∀ x ∈ s.stored, x.1 ∈ s.returned ∨ s.lastPoll ≤ x.2

variable {s : Polled α}

lemma Polled.Inv.allReturned_query (h : s.Inv) : (s.step (.query false)).AllReturned := by
  intro x hx
  rcases h.each x hx with hr | hl
  · exact mem_append_left _ hr
  · exact mem_append_right _ (mem_map_of_mem (mem_filter.mpr ⟨hx, by simpa using hl⟩))

lemma Polled.Inv.step (h : s.Inv) {event : PollEvent α}
    (hs : ∀ item, event = .store item → s.polls = 0) : (s.step event).Inv := by
  cases event with
  | tick => exact ⟨Nat.le_succ_of_le h.lastPoll_le, h.all, h.each⟩
  | store item =>
    refine ⟨h.lastPoll_le, fun hp => absurd (hs item rfl) hp, fun x hx => ?_⟩
    rcases mem_append.mp hx with hx | hx
    · exact h.each x hx
    · rw [mem_singleton.mp hx]
      exact .inr h.lastPoll_le
  | query fails =>
    cases fails with
    | true => exact h
    | false =>
      have ha := h.allReturned_query
      exact ⟨h.lastPoll_le, fun _ => ha, fun x hx => .inl (ha x hx)⟩
  | update =>
    rw [Polled.step]
    split_ifs with hp
    · exact h
    · exact ⟨Nat.le_refl _, fun _ => h.all hp, fun x hx => .inl (h.all hp x hx)⟩

lemma Polled.Inv.run (h : s.Inv) {es : List (PollEvent α)} (hs : s.StoresApart es) :
    (s.run es).Inv := by
  induction es generalizing s with
  | nil => exact h
  | cons ev es ih => exact ih (h.step hs.1) hs.2

end EthdaNode.JsonRpc
