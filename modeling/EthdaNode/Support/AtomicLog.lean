import Mathlib.Data.List.Basic

/-!
# Logs with atomic operations

A log to which entries are appended inside an operation: they are published when
the operation is committed and discarded when it is rolled back.
-/

/-- A log with the entries of the open operation, if there is one. -/
structure AtomicLog (ε : Type) where
  published : List ε
  op : Option (List ε)
  deriving DecidableEq

namespace AtomicLog

variable {ε α : Type}

def start (l : AtomicLog ε) : AtomicLog ε := { l with op := some [] }

def add (e : ε) (l : AtomicLog ε) : AtomicLog ε := { l with op := l.op.map (· ++ [e]) }

def commit (l : AtomicLog ε) : AtomicLog ε := ⟨l.published ++ l.op.getD [], none⟩

def rollback (l : AtomicLog ε) : AtomicLog ε := { l with op := none }

/-- Nothing is open, and the log holds the whole groups of some of the messages, in
their order, after what it held at first. -/
def Whole (group : α → List ε) (first : List ε) (messages : List α) (l : AtomicLog ε) : Prop :=
  l.op = none ∧ ∃ written : List α, written.Sublist messages ∧
    l.published = first ++ written.flatMap group

section
variable {group : α → List ε} {first : List ε} {ms : List α} {l : AtomicLog ε}

lemma Whole.skip (h : Whole group first ms l) (m : α) : Whole group first (ms ++ [m]) l := by
  obtain ⟨ho, written, hs, hp⟩ := h
  exact ⟨ho, written, hs.trans (List.sublist_append_left _ _), hp⟩

lemma Whole.rollback (h : Whole group first ms l) : Whole group first ms l.rollback := ⟨rfl, h.2⟩

lemma Whole.write (h : Whole group first ms l) (m : α) :
    Whole group first (ms ++ [m]) (commit ⟨l.published, some (group m)⟩) := by
  obtain ⟨ho, written, hs, hp⟩ := h
  refine ⟨rfl, written ++ [m], hs.append (List.Sublist.refl _), ?_⟩
  change l.published ++ group m = _
  rw [hp, List.flatMap_append, List.flatMap_singleton, List.append_assoc]
end

end AtomicLog
