import Brenn.Queue.Core

/-!
What is true of every message a core holds.

A property of messages, and one of a parked message and its owner, survive every operation as long
as what is brought in has them.
-/

namespace Brenn.Queue
open Brenn.Lib

universe u v w x

variable {M : Type u} {Ep : Type v} {S : Type w} {P : Type x} [LinearOrder S]

namespace RingCore

/-- Every message has the first property, and every parked one the second with its owner. -/
structure Everywhere (holds : M → Prop) (owns : P → M → Prop) (core : RingCore M Ep S P) : Prop where
  retained : ∀ entry ∈ core.ring.entries, holds entry.message
  parked : ∀ entry ∈ core.deferred.entries, holds entry.message ∧ owns entry.sender entry.message

variable {holds : M → Prop} {owns : P → M → Prop} {core : RingCore M Ep S P}

theorem everywhere_new (epoch : Ep) (depth : Nat) : Everywhere holds owns (new epoch depth : RingCore M Ep S P) :=
  ⟨by simp [new], by simp [new, DeferredSet.new]⟩

theorem Everywhere.imp {weaker : M → Prop} (all : Everywhere holds owns core)
    (weaken : ∀ message, holds message → weaker message) : Everywhere weaker owns core :=
  ⟨fun entry member => weaken _ (all.retained entry member),
    fun entry member => (all.parked entry member).imp_left (weaken _)⟩

theorem Everywhere.setDepth (all : Everywhere holds owns core) (depth : Nat) :
    Everywhere holds owns (core.setDepth depth).2 := by
  refine ⟨fun entry member => ?_, all.parked⟩
  rw [setDepth_ring, RetainedRing.setDepth_entries] at member
  exact all.retained entry (List.mem_of_mem_drop member)

theorem Everywhere.append (all : Everywhere holds owns core) {message : M} (new : holds message) :
    Everywhere holds owns (core.append message).2 := by
  refine ⟨fun entry member => ?_, fun entry member => ?_⟩
  · rw [append_ring, RetainedRing.append_entries] at member
    rcases List.mem_append.mp (List.mem_of_mem_drop member) with old | fresh
    · exact all.retained entry old
    · rw [List.mem_singleton.mp fresh]
      exact new
  · rw [append_deferred] at member
    exact all.parked entry member

theorem Everywhere.park (all : Everywhere holds owns core) {sender : P} {message : M} {releaseAt id : Nat}
    {next : RingCore M Ep S P} (new : holds message) (owned : owns sender message)
    (parked : core.park sender message releaseAt = .ok (id, next)) : Everywhere holds owns next := by
  unfold RingCore.park at parked
  cases room : core.deferred.refusal with
  | some refused => simp [DeferredSet.park, room] at parked
  | none =>
    obtain ⟨after, took, -, entries⟩ := core.deferred.park_entries room sender message releaseAt
    rw [took] at parked
    cases parked
    refine ⟨all.retained, fun entry member => ?_⟩
    dsimp only at member
    rw [entries, mem_insertBy] at member
    rcases member with rfl | old
    · exact ⟨new, owned⟩
    · exact all.parked entry old

/-- Entering due messages keeps the property, of the core and of what is reported released. -/
theorem Everywhere.enterDue (due : List (Deferred M P)) (report : ReleaseReport M S)
    (all : Everywhere holds owns core) (fit : ∀ entry ∈ due, holds entry.message)
    (released : ∀ entry ∈ report.released, holds entry.message) :
    Everywhere holds owns (core.enterDue due report).2 ∧
      ∀ entry ∈ (core.enterDue due report).1.released, holds entry.message := by
  induction due generalizing core report with
  | nil => exact ⟨all, released⟩
  | cons entry due ih =>
    obtain ⟨first, rest⟩ := List.forall_mem_cons.mp fit
    refine ih _ (all.append first) rest fun other member => ?_
    rcases List.mem_append.mp member with old | fresh
    · exact released other old
    · rw [List.mem_singleton.mp fresh]
      exact first

theorem Everywhere.releaseDue (all : Everywhere holds owns core) (now : Nat) :
    Everywhere holds owns (core.releaseDue now).2 ∧
      ∀ entry ∈ (core.releaseDue now).1.released, holds entry.message := by
  obtain ⟨-, rest⟩ := core.deferred.releaseDue_entries now
  have kept : Everywhere holds owns { core with deferred := (core.deferred.releaseDue now).2 } := by
    refine ⟨all.retained, fun entry member => ?_⟩
    dsimp only at member
    rw [rest] at member
    exact all.parked entry (List.mem_filter.mp member).1
  exact kept.enterDue _ _ (fun entry member => (all.parked entry (List.mem_of_mem_take member)).1) (by simp)

theorem Everywhere.cancelDeferred (all : Everywhere holds owns core) (id : Nat) :
    Everywhere holds owns (core.cancelDeferred id).2 := by
  unfold RingCore.cancelDeferred DeferredSet.cancel
  cases core.deferred.get id with
  | none => exact all
  | some entry =>
    refine ⟨all.retained, fun other member => ?_⟩
    dsimp only [Option.map_some] at member
    rw [core.deferred.without_entries] at member
    exact all.parked other (List.mem_filter.mp member).1

/-- Editing a parked entry keeps the properties if the replacement, where there is one, has them. -/
theorem Everywhere.editDeferred (all : Everywhere holds owns core) {entry : Deferred M P}
    (member : entry ∈ core.deferred.entries) {message : Option M} {releaseAt : Option Nat}
    (new : ∀ replacement, message = some replacement → holds replacement ∧ owns entry.sender replacement) :
    Everywhere holds owns (core.editDeferred entry.id message releaseAt).2 := by
  obtain ⟨after, edited, -, entries⟩ := core.deferred.edit_entries member message releaseAt
  unfold RingCore.editDeferred
  rw [edited]
  refine ⟨all.retained, fun other inside => ?_⟩
  dsimp only at inside
  rw [entries, mem_insertBy] at inside
  rcases inside with rfl | old
  · cases message with
    | none => exact all.parked entry member
    | some replacement => exact new replacement rfl
  · exact all.parked other (List.mem_filter.mp old).1

variable [DecidableEq P]

/-- The entry an owner is answered is parked, is the owner's, and is the one named. -/
theorem ownedDeferred_owned {sender : P} {names : M → Bool} {cutoff id : Nat} {entry : Deferred M P}
    (found : core.ownedDeferred sender names cutoff = .owned id entry) :
    entry ∈ core.deferred.entries ∧ entry.id = id ∧ entry.sender = sender ∧ names entry.message = true := by
  unfold ownedDeferred at found
  cases parked : core.deferred.entries.find? fun entry => names entry.message with
  | none => simp [parked] at found
  | some held =>
    rw [parked] at found
    dsimp only at found
    by_cases foreign : held.sender ≠ sender
    · rw [if_pos foreign] at found
      cases found
    · rw [if_neg foreign] at found
      by_cases late : held.releaseAt ≤ cutoff
      · rw [if_pos late] at found
        cases found
      · rw [if_neg late] at found
        cases found
        have named := List.find?_some parked
        exact ⟨List.mem_of_find?_eq_some parked, rfl, not_not.mp foreign, named⟩

end RingCore

end Brenn.Queue
