import Brenn.Lib.Numbered

/-!
The bounded, drop-oldest retained ring and its replay computation.

Sequence numbers are natural numbers: the source's `u64` counter starts at one
and grows by one per append. The ring carries its density as fields.
-/

namespace Brenn.Queue
open Brenn.Lib

universe u v

variable {M : Type u} {Ep : Type v}

/-- One retained message under the sequence number the ring assigned it. -/
structure Retained (M : Type u) where
  seq : Nat
  message : M
  deriving Repr, DecidableEq

/-- A resume position: the epoch that assigned `seq`, and the last seq held. -/
structure Resume (Ep : Type v) where
  epoch : Ep
  seq : Nat
  deriving Repr, DecidableEq

inductive GapReason where
  | epochChanged
  | beyondRetained
  | resumeAhead
  deriving Repr, DecidableEq

inductive ReplayDecision where
  | fresh
  | upToDate
  | exact
  | gap (reason : GapReason)
  deriving Repr, DecidableEq

structure Replay (M : Type u) where
  messages : List (Retained M)
  decision : ReplayDecision
  deriving Repr, DecidableEq

/-- What one append did: the seq it took and how many entries it evicted. -/
structure Append where
  seq : Nat
  evicted : Nat
  deriving Repr, DecidableEq

/-- The retained window. Its entries are a run of consecutive seqs that ends
    just below `nextSeq` and is no longer than `depth`. -/
structure RetainedRing (M : Type u) (Ep : Type v) where
  epoch : Ep
  depth : Nat
  nextSeq : Nat
  entries : List (Retained M)
  counted : entries.length < nextSeq
  dense : Numbered Retained.seq (nextSeq - entries.length) entries
  bounded : entries.length ≤ depth

/-- Drop entries from the front while there are more than `depth`, counting them. -/
def trim (depth : Nat) : List (Retained M) → List (Retained M) × Nat
  | [] => ([], 0)
  | entry :: entries =>
    if depth < entries.length + 1 then
      let (kept, evicted) := trim depth entries
      (kept, evicted + 1)
    else (entry :: entries, 0)

theorem trim_eq (depth : Nat) (entries : List (Retained M)) :
    trim depth entries = (entries.drop (entries.length - depth), entries.length - depth) := by
  induction entries with
  | nil => simp [trim]
  | cons entry entries ih =>
    unfold trim
    split
    · rw [ih, List.length_cons, show entries.length + 1 - depth = entries.length - depth + 1 by omega,
        List.drop_succ_cons]
    · rw [List.length_cons, show entries.length + 1 - depth = 0 by omega, List.drop_zero]

namespace RetainedRing

def new (epoch : Ep) (depth : Nat) : RetainedRing M Ep where
  epoch := epoch
  depth := depth
  nextSeq := 1
  entries := []
  counted := Nat.one_pos
  dense := numbered_nil
  bounded := Nat.zero_le depth

def trimmed (epoch : Ep) (depth nextSeq : Nat) (entries : List (Retained M))
    (counted : entries.length < nextSeq)
    (dense : Numbered Retained.seq (nextSeq - entries.length) entries) : RetainedRing M Ep × Nat :=
  ({  epoch := epoch
      depth := depth
      nextSeq := nextSeq
      entries := (trim depth entries).1
      counted := by simp only [trim_eq, List.length_drop]; omega
      dense := by
        have cut := dense.drop (Nat.sub_le entries.length depth)
        rw [trim_eq]
        simpa only [List.length_drop,
          show nextSeq - (entries.length - (entries.length - depth)) =
            nextSeq - entries.length + (entries.length - depth) by omega] using cut
      bounded := by simp only [trim_eq, List.length_drop]; omega },
    (trim depth entries).2)

def setDepth (ring : RetainedRing M Ep) (depth : Nat) : RetainedRing M Ep :=
  (trimmed ring.epoch depth ring.nextSeq ring.entries ring.counted ring.dense).1

def isEmpty (ring : RetainedRing M Ep) : Bool := ring.entries.isEmpty

def newestSeq (ring : RetainedRing M Ep) : Nat := ring.nextSeq - 1

def oldestSeq (ring : RetainedRing M Ep) : Option Nat := ring.entries.head?.map Retained.seq

/-- Retain a message at the tail. At depth zero the seq is spent and nothing is kept. -/
def append (ring : RetainedRing M Ep) (message : M) : Append × RetainedRing M Ep :=
  if zero : ring.depth = 0 then
    (⟨ring.nextSeq, 0⟩,
      { ring with
        nextSeq := ring.nextSeq + 1
        counted := by have := ring.counted; omega
        dense := by
          have none : ring.entries = [] := List.length_eq_zero_iff.mp (by have := ring.bounded; omega)
          rw [none]
          exact numbered_nil })
  else
    let kept := trimmed ring.epoch ring.depth (ring.nextSeq + 1)
      (ring.entries ++ [⟨ring.nextSeq, message⟩])
      (by have := ring.counted; simp only [List.length_append, List.length_singleton]; omega)
      (by
        have := ring.counted
        rw [List.length_append, List.length_singleton, Nat.add_sub_add_right]
        exact ring.dense.snoc (by simp only; omega))
    (⟨ring.nextSeq, kept.2⟩, kept.1)

def tail (ring : RetainedRing M Ep) (n : Nat) : List (Retained M) :=
  ring.entries.drop (ring.entries.length - min n ring.entries.length)

def offsetAfter (ring : RetainedRing M Ep) (seq : Nat) : Nat :=
  match ring.entries.head? with
  | none => 0
  | some front => min (seq + 1 - front.seq) ring.entries.length

def since (ring : RetainedRing M Ep) (seq : Nat) : List (Retained M) :=
  ring.entries.drop (ring.offsetAfter seq)

/-- The seq just below the newest `depth` entries, or the newest seq when there are none. -/
def primedFrom (ring : RetainedRing M Ep) (depth : Nat) : Nat :=
  match (ring.tail depth).head? with
  | some first => first.seq - 1
  | none => ring.newestSeq

def replay [DecidableEq Ep] (ring : RetainedRing M Ep) (resume : Option (Resume Ep)) : Replay M :=
  match resume with
  | none => ⟨ring.entries, .fresh⟩
  | some resume =>
    if resume.epoch ≠ ring.epoch then ⟨ring.entries, .gap .epochChanged⟩
    else if resume.seq > ring.newestSeq then ⟨ring.entries, .gap .resumeAhead⟩
    else if resume.seq = ring.newestSeq then ⟨[], .upToDate⟩
    else
      match ring.entries.head? with
      | some oldest =>
        if oldest.seq ≤ resume.seq + 1 then ⟨ring.since resume.seq, .exact⟩
        else ⟨ring.entries, .gap .beyondRetained⟩
      | none => ⟨ring.entries, .gap .beyondRetained⟩

/-! ### Field lemmas -/

variable (ring : RetainedRing M Ep)

@[simp] theorem new_epoch (epoch : Ep) (depth : Nat) : (new epoch depth : RetainedRing M Ep).epoch = epoch := rfl
@[simp] theorem new_nextSeq (epoch : Ep) (depth : Nat) : (new epoch depth : RetainedRing M Ep).nextSeq = 1 := rfl
@[simp] theorem new_entries (epoch : Ep) (depth : Nat) : (new epoch depth : RetainedRing M Ep).entries = [] := rfl
@[simp] theorem setDepth_nextSeq (depth : Nat) : (ring.setDepth depth).nextSeq = ring.nextSeq := rfl
@[simp] theorem setDepth_depth (depth : Nat) : (ring.setDepth depth).depth = depth := rfl
@[simp] theorem setDepth_epoch (depth : Nat) : (ring.setDepth depth).epoch = ring.epoch := rfl

@[simp] theorem setDepth_entries (depth : Nat) :
    (ring.setDepth depth).entries = ring.entries.drop (ring.entries.length - depth) := by
  simp [setDepth, trimmed, trim_eq]

@[simp] theorem append_seq (message : M) : (ring.append message).1.seq = ring.nextSeq := by
  unfold append
  split <;> rfl

@[simp] theorem append_nextSeq (message : M) : (ring.append message).2.nextSeq = ring.nextSeq + 1 := by
  unfold append
  split <;> rfl

@[simp] theorem append_depth (message : M) : (ring.append message).2.depth = ring.depth := by
  unfold append
  split <;> rfl

@[simp] theorem append_epoch (message : M) : (ring.append message).2.epoch = ring.epoch := by
  unfold append
  split <;> rfl

/-- The window after an append is the newest `depth` of what was there and the new entry,
    at depth zero as at any other. -/
theorem append_entries (message : M) :
    (ring.append message).2.entries =
      (ring.entries ++ [(⟨ring.nextSeq, message⟩ : Retained M)]).drop (ring.entries.length + 1 - ring.depth) := by
  have bounded := ring.bounded
  unfold append
  split
  next zero =>
    have none : ring.entries = [] := List.length_eq_zero_iff.mp (by omega)
    simp [none, zero]
  next => simp [trimmed, trim_eq]

theorem append_evicted (message : M) :
    (ring.append message).1.evicted = if ring.depth = 0 then 0 else ring.entries.length + 1 - ring.depth := by
  unfold append
  split <;> simp [trimmed, trim_eq]

theorem newestSeq_succ : ring.newestSeq + 1 = ring.nextSeq := by
  have := ring.counted
  unfold newestSeq
  omega

theorem seq_bounds {entry : Retained M} (member : entry ∈ ring.entries) :
    ring.nextSeq - ring.entries.length ≤ entry.seq ∧ entry.seq < ring.nextSeq := by
  have counted := ring.counted
  have bounds := ring.dense.key_bounds member
  omega

theorem oldestSeq_eq : ring.oldestSeq =
    if ring.entries = [] then none else some (ring.nextSeq - ring.entries.length) := by
  unfold oldestSeq
  cases front : ring.entries.head? with
  | none => simp [List.head?_eq_none_iff.mp front]
  | some oldest =>
    have nonempty : ring.entries ≠ [] := by
      intro empty
      simp [empty] at front
    simp [nonempty, ring.dense.key_head front]

theorem tail_eq (n : Nat) : ring.tail n = ring.entries.drop (ring.entries.length - n) := by
  unfold tail
  congr 1
  omega

end RetainedRing

end Brenn.Queue
