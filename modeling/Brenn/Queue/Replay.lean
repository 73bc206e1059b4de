import Brenn.Queue.Ring

/-!
Replay against the whole append history.

The ring's entries stay a suffix of everything ever appended, and an answer that claims
continuity (`exact`, `upToDate`) carries every message after the resume position.
-/

namespace Brenn.Queue
open Brenn.Lib

universe u v

variable {M : Type u} {Ep : Type v}

inductive RingOp (M : Type u) where
  | append (message : M)
  | setDepth (depth : Nat)
  deriving Repr, DecidableEq

def RetainedRing.apply (ring : RetainedRing M Ep) : RingOp M → RetainedRing M Ep
  | .append message => (ring.append message).2
  | .setDepth depth => ring.setDepth depth

def RetainedRing.run (ring : RetainedRing M Ep) (ops : List (RingOp M)) : RetainedRing M Ep :=
  ops.foldl RetainedRing.apply ring

def appended : List (RingOp M) → List M
  | [] => []
  | .append message :: ops => message :: appended ops
  | .setDepth _ :: ops => appended ops

/-- Everything ever appended, each message under its position counted from one. -/
def history (messages : List M) : List (Retained M) :=
  messages.mapIdx fun index message => ⟨index + 1, message⟩

@[simp] theorem length_history (messages : List M) : (history messages).length = messages.length := by
  simp [history]

theorem history_snoc (messages : List M) (message : M) :
    history (messages ++ [message]) = history messages ++ [⟨messages.length + 1, message⟩] := by
  simp [history, List.mapIdx_append]

theorem history_numbered (messages : List M) : Numbered Retained.seq 1 (history messages) := by
  refine List.ext_getElem (by simp) fun index _ _ => ?_
  simp [history, Nat.add_comm]

/-! ### The retained suffix -/

/-- The ring has assigned one seq per message of `messages` and retains the newest of them. -/
structure Follows (ring : RetainedRing M Ep) (messages : List M) : Prop where
  assigned : ring.nextSeq = messages.length + 1
  retained : ring.entries <:+ history messages

theorem Follows.append {ring : RetainedRing M Ep} {messages : List M} (follows : Follows ring messages)
    (message : M) : Follows (ring.append message).2 (messages ++ [message]) := by
  refine ⟨by simp [follows.assigned], ?_⟩
  rw [ring.append_entries, history_snoc, ← follows.assigned]
  obtain ⟨forgotten, split⟩ := follows.retained
  refine (List.drop_suffix _ _).trans ⟨forgotten, ?_⟩
  rw [← List.append_assoc, split]

theorem Follows.setDepth {ring : RetainedRing M Ep} {messages : List M} (follows : Follows ring messages)
    (depth : Nat) : Follows (ring.setDepth depth) messages := by
  refine ⟨follows.assigned, ?_⟩
  rw [ring.setDepth_entries]
  exact (List.drop_suffix _ _).trans follows.retained

theorem Follows.run {ring : RetainedRing M Ep} {messages : List M} (follows : Follows ring messages)
    (ops : List (RingOp M)) : Follows (ring.run ops) (messages ++ appended ops) := by
  induction ops generalizing ring messages with
  | nil => simpa [appended, RetainedRing.run] using follows
  | cons op ops ih =>
    cases op with
    | append message => simpa [appended, RetainedRing.run, RetainedRing.apply] using ih (follows.append message)
    | setDepth depth => exact ih (follows.setDepth depth)

theorem follows_new (epoch : Ep) (depth : Nat) : Follows (.new epoch depth : RetainedRing M Ep) [] :=
  ⟨rfl, List.suffix_rfl⟩

@[simp] theorem RetainedRing.run_epoch (ring : RetainedRing M Ep) (ops : List (RingOp M)) :
    (ring.run ops).epoch = ring.epoch := by
  induction ops generalizing ring with
  | nil => rfl
  | cons op ops ih =>
    rw [RetainedRing.run, List.foldl_cons, ← RetainedRing.run, ih]
    cases op <;> simp [RetainedRing.apply]

/-! ### What a replay answers -/

/-- A replay answer that is true to the history: `retained` is what the ring still holds of
    `history`, `epoch` its identity. -/
structure Faithful (history retained : List (Retained M)) (epoch : Ep) (resume : Resume Ep)
    (answer : Replay M) : Prop where
  epochChanged : resume.epoch ≠ epoch → answer = ⟨retained, .gap .epochChanged⟩
  resumeAhead : resume.epoch = epoch → history.length < resume.seq →
    answer = ⟨retained, .gap .resumeAhead⟩
  upToDate : resume.epoch = epoch → resume.seq ≤ history.length →
    (answer.decision = .upToDate ↔ resume.seq = history.length)
  exact : resume.epoch = epoch → resume.seq < history.length →
    (answer.decision = .exact ↔ ∀ entry ∈ history, resume.seq < entry.seq → entry ∈ retained)
  beyondRetained : resume.epoch = epoch → resume.seq ≤ history.length →
    answer.decision ≠ .upToDate → answer.decision ≠ .exact → answer = ⟨retained, .gap .beyondRetained⟩
  continuous : answer.decision = .exact ∨ answer.decision = .upToDate →
    answer.messages = history.filter (fun entry => decide (resume.seq < entry.seq))

section Covers

variable {ring : RetainedRing M Ep} {messages : List M}

theorem Follows.newestSeq (follows : Follows ring messages) : ring.newestSeq = messages.length := by
  simp [RetainedRing.newestSeq, follows.assigned]

theorem Follows.entries_eq (follows : Follows ring messages) :
    ring.entries = (history messages).drop (messages.length - ring.entries.length) := by
  simpa using List.suffix_iff_eq_drop.mp follows.retained

/-- Nothing after `seq` has been forgotten exactly when the front edge is at or below it. -/
theorem Follows.covers_iff (follows : Follows ring messages) {seq : Nat} (owed : seq < messages.length) :
    (∀ entry ∈ history messages, seq < entry.seq → entry ∈ ring.entries) ↔
      messages.length - ring.entries.length ≤ seq := by
  have assigned := follows.assigned
  constructor
  · intro covered
    -- the first owed message is retained, so the run reaches down to it
    obtain ⟨first, member, number⟩ := ((history_numbered messages).mem_keys (seq + 1)).mpr (by simp; omega)
    have bounds := ring.seq_bounds (covered first member (by omega))
    omega
  · intro reaches entry member after
    rw [follows.entries_eq, ← Nat.add_sub_cancel (messages.length - ring.entries.length) 1,
      ← (history_numbered messages).filter_ge]
    exact List.mem_filter.mpr ⟨member, by simp; omega⟩

/-- The front edge of a ring that still owes something, compared as `replay` compares it. -/
theorem Follows.front_reaches (follows : Follows ring messages) {seq : Nat} (owed : seq < messages.length) :
    (∃ oldest, ring.entries.head? = some oldest ∧ oldest.seq ≤ seq + 1) ↔
      messages.length - ring.entries.length ≤ seq := by
  have assigned := follows.assigned
  constructor
  · rintro ⟨oldest, front, reaches⟩
    have number := ring.dense.key_head front
    omega
  · intro reaches
    cases front : ring.entries.head? with
    | none =>
      have empty := List.head?_eq_none_iff.mp front
      simp only [empty, List.length_nil] at reaches
      omega
    | some oldest =>
      have number := ring.dense.key_head front
      exact ⟨oldest, rfl, by omega⟩

theorem Follows.since_eq (follows : Follows ring messages) {seq : Nat}
    (reaches : messages.length - ring.entries.length ≤ seq) (owed : seq < messages.length) :
    ring.since seq = (history messages).filter (fun entry => decide (seq < entry.seq)) := by
  obtain ⟨oldest, front, -⟩ := (follows.front_reaches owed).mpr reaches
  have number := ring.dense.key_head front
  have assigned := follows.assigned
  have counted := ring.counted
  have suffix := follows.entries_eq
  have cut := (history_numbered messages).filter_ge (seq + 1)
  simp only [Nat.add_sub_cancel, Nat.succ_le_iff] at cut
  rw [cut, RetainedRing.since, RetainedRing.offsetAfter, front]
  simp only
  rw [suffix, List.drop_drop]
  congr 1
  simp only [List.length_drop, length_history]
  omega

end Covers

/-- Every answer of a ring that follows `messages` is true to their history. -/
theorem Follows.replay_faithful [DecidableEq Ep] {ring : RetainedRing M Ep} {messages : List M}
    (follows : Follows ring messages) (resume : Resume Ep) :
    Faithful (history messages) ring.entries ring.epoch resume (ring.replay (some resume)) := by
  have newest := follows.newestSeq
  by_cases sameEpoch : resume.epoch = ring.epoch
  swap
  · constructor <;> simp [RetainedRing.replay, sameEpoch]
  rcases Nat.lt_trichotomy messages.length resume.seq with ahead | level | owed
  · constructor <;> simp [RetainedRing.replay, sameEpoch, newest, ahead]
    all_goals omega
  · have nothing : (history messages).filter (fun entry => decide (resume.seq < entry.seq)) = [] := by
      refine List.filter_eq_nil_iff.mpr fun entry member => ?_
      have bounds := (history_numbered messages).key_bounds member
      simp only [length_history] at bounds
      simp; omega
    constructor <;> simp [RetainedRing.replay, sameEpoch, newest, level, nothing]
  · have covers := follows.covers_iff owed
    have reaches := follows.front_reaches owed
    by_cases front : messages.length - ring.entries.length ≤ resume.seq
    · obtain ⟨oldest, head, low⟩ := reaches.mpr front
      have answer : ring.replay (some resume) = ⟨ring.since resume.seq, .exact⟩ := by
        simp [RetainedRing.replay, sameEpoch, newest, head, low, Nat.not_lt.mpr owed.le, owed.ne]
      constructor <;> simp [answer, sameEpoch, follows.since_eq front owed, owed.ne]
      · omega
      · exact fun _ => covers.mpr front
    · have answer : ring.replay (some resume) = ⟨ring.entries, .gap .beyondRetained⟩ := by
        simp only [RetainedRing.replay, sameEpoch, newest, Nat.not_lt.mpr owed.le, owed.ne]
        cases head : ring.entries.head? with
        | none => simp
        | some oldest =>
          have high : ¬ oldest.seq ≤ resume.seq + 1 := fun low => front (reaches.mp ⟨oldest, head, low⟩)
          simp [high]
      constructor <;> simp [answer, sameEpoch, owed.ne]
      · omega
      · intro _
        simpa using fun covered => front (covers.mp covered)

/-- Over every sequence of appends and depth changes the ring retains a contiguous suffix of
    the append history that ends at the newest seq, and every replay is true to that history. -/
theorem run_replay_faithful [DecidableEq Ep] (epoch : Ep) (depth : Nat) (ops : List (RingOp M)) :
    let ring := (RetainedRing.new epoch depth).run ops
    let past := history (appended ops)
    ring.newestSeq = past.length ∧
    ring.entries <:+ past ∧
    (∀ newest, ring.entries.getLast? = some newest → newest.seq = ring.newestSeq) ∧
    ring.replay none = ⟨ring.entries, .fresh⟩ ∧
    ∀ resume, Faithful past ring.entries epoch resume (ring.replay (some resume)) := by
  intro ring past
  have follows : Follows ring (appended ops) := by simpa using (follows_new epoch depth).run ops
  refine ⟨by simp [past, follows.newestSeq], follows.retained, ?_, rfl, ?_⟩
  · intro newest back
    have number := ring.dense.key_last back
    have counted := ring.counted
    have newestSeq := ring.newestSeq_succ
    omega
  · intro resume
    simpa [ring, past] using follows.replay_faithful resume

end Brenn.Queue
