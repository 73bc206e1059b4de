import Brenn.Queue.Core

/-!
Releasing in two sweeps or in one.

Cutting a batch of appends in two changes neither the ring nor the positions, and the two reports
add up to the one.
-/

namespace Brenn.Queue
open Brenn.Lib

universe u v w x

variable {M : Type u} {Ep : Type v} {S : Type w} {P : Type x}

/-! ### Parked entries -/

theorem DeferredSet.eq_of_fields {left right : DeferredSet M P} (cap : left.cap = right.cap)
    (nextId : left.nextId = right.nextId) (entries : left.entries = right.entries) : left = right := by
  cases left
  cases right
  simp_all

/-- The entries due later are those due earlier and then those due in between. -/
theorem DeferredSet.releaseDue_twice (set : DeferredSet M P) {first second : Nat} (earlier : first ≤ second) :
    (set.releaseDue second).1 = (set.releaseDue first).1 ++ ((set.releaseDue first).2.releaseDue second).1 ∧
      ((set.releaseDue first).2.releaseDue second).2 = (set.releaseDue second).2 := by
  obtain ⟨due, rest⟩ := set.releaseDue_entries first
  obtain ⟨dueSecond, restSecond⟩ := set.releaseDue_entries second
  obtain ⟨dueBetween, restBetween⟩ := (set.releaseDue first).2.releaseDue_entries second
  have cut : set.entries = (set.releaseDue first).1 ++ (set.releaseDue first).2.entries :=
    (List.take_append_drop _ set.entries).symm
  have all : ∀ entry ∈ (set.releaseDue first).1, entry.releaseAt ≤ second := by
    intro entry listed
    rw [due] at listed
    exact (of_decide_eq_true (List.mem_filter.mp listed).2).trans earlier
  constructor
  · rw [dueSecond, dueBetween]
    conv_lhs => rw [cut]
    rw [List.filter_append, List.filter_eq_self.mpr fun entry listed => decide_eq_true (all entry listed)]
  · refine DeferredSet.eq_of_fields rfl rfl ?_
    rw [restBetween, restSecond]
    conv_rhs => rw [cut]
    have none : ((set.releaseDue first).1.filter fun entry => !decide (entry.releaseAt ≤ second)) = [] :=
      List.filter_eq_nil_iff.mpr fun entry listed => by simpa using all entry listed
    rw [List.filter_append, none, List.nil_append]

/-! ### Reports that name each subscriber once -/

def Named (overflow : List (CursorOverflow S)) : Prop := (overflow.map CursorOverflow.subscriber).Nodup

section Names

variable [DecidableEq S]

theorem addOverflow_subscribers (event : CursorOverflow S) (into : List (CursorOverflow S)) :
    (addOverflow event into).map CursorOverflow.subscriber =
      if event.subscriber ∈ into.map CursorOverflow.subscriber then into.map CursorOverflow.subscriber
      else into.map CursorOverflow.subscriber ++ [event.subscriber] := by
  induction into with
  | nil => rfl
  | cons existing rest ih =>
    unfold addOverflow
    by_cases same : existing.subscriber = event.subscriber
    · simp [same]
    · rw [if_neg same, List.map_cons, ih]
      by_cases later : event.subscriber ∈ rest.map CursorOverflow.subscriber
      · simp only [List.map_cons, List.mem_cons, later, or_true, if_true]
      · simp only [List.map_cons, List.mem_cons, later, Ne.symm same, or_self, if_false, List.cons_append]

theorem Named.mergeOverflow {into : List (CursorOverflow S)} (named : Named into) (more : List (CursorOverflow S)) :
    Named (mergeOverflow into more) := by
  unfold Queue.mergeOverflow
  induction more generalizing into with
  | nil => exact named
  | cons event more ih =>
    refine ih ?_
    unfold Named
    rw [addOverflow_subscribers]
    split
    next => exact named
    next absent =>
      refine List.nodup_append.mpr ⟨named, List.nodup_singleton _, fun other held added same appended => ?_⟩
      rw [appended, List.mem_singleton.mp same] at held
      exact absent held

end Names

namespace RingCore

variable [LinearOrder S]

/-! ### The loop over due entries -/

theorem enterDue_append (core : RingCore M Ep S P) (first second : List (Deferred M P)) (report : ReleaseReport M S) :
    core.enterDue (first ++ second) report =
      (core.enterDue first report).2.enterDue second (core.enterDue first report).1 := by
  induction first generalizing core report with
  | nil => rfl
  | cons entry first ih => exact ih _ _

def waiting (core : RingCore M Ep S P) (deferred : DeferredSet M P) : RingCore M Ep S P :=
  { core with deferred := deferred }

theorem append_waiting (core : RingCore M Ep S P) (deferred : DeferredSet M P) (message : M) :
    (core.waiting deferred).append message = ((core.append message).1, (core.append message).2.waiting deferred) := by
  unfold append waiting
  dsimp only
  split <;> rfl

theorem enterDue_waiting (core : RingCore M Ep S P) (deferred : DeferredSet M P) (due : List (Deferred M P))
    (report : ReleaseReport M S) :
    (core.waiting deferred).enterDue due report =
      ((core.enterDue due report).1, (core.enterDue due report).2.waiting deferred) := by
  induction due generalizing core report with
  | nil => rfl
  | cons entry due ih =>
    simp only [enterDue, append_waiting]
    exact ih _ _

/-- The report a loop starts from comes off the report it ends with. -/
theorem enterDue_report (core : RingCore M Ep S P) (due : List (Deferred M P)) (report : ReleaseReport M S) :
    (core.enterDue due report).2 = (core.enterDue due ⟨[], []⟩).2 ∧
      (core.enterDue due report).1.released = report.released ++ (core.enterDue due ⟨[], []⟩).1.released ∧
      ∀ subscriber, charged subscriber (core.enterDue due report).1.overflow =
        charged subscriber report.overflow + charged subscriber (core.enterDue due ⟨[], []⟩).1.overflow := by
  induction due generalizing core report with
  | nil => simp [enterDue]
  | cons entry due ih =>
    simp only [enterDue]
    generalize (core.append entry.message).1 = appended
    obtain ⟨same, released, charges⟩ := ih (core.append entry.message).2
      ⟨report.released ++ [⟨appended.seq, entry.message⟩], mergeOverflow report.overflow appended.overflow⟩
    obtain ⟨same', released', charges'⟩ := ih (core.append entry.message).2
      ⟨[] ++ [⟨appended.seq, entry.message⟩], mergeOverflow [] appended.overflow⟩
    refine ⟨same.trans same'.symm, ?_, fun subscriber => ?_⟩
    · rw [released, released', List.nil_append, List.append_assoc]
    · rw [charges, charges', charged_mergeOverflow, charged_mergeOverflow, charged_nil]
      omega

theorem enterDue_named (core : RingCore M Ep S P) (due : List (Deferred M P)) {report : ReleaseReport M S}
    (named : Named report.overflow) : Named (core.enterDue due report).1.overflow := by
  induction due generalizing core report with
  | nil => exact named
  | cons entry due ih => exact ih _ (named.mergeOverflow _)

/-! ### Two sweeps -/

theorem releaseDue_eq (core : RingCore M Ep S P) (now : Nat) :
    core.releaseDue now = ((core.enterDue (core.deferred.releaseDue now).1 ⟨[], []⟩).1,
      (core.enterDue (core.deferred.releaseDue now).1 ⟨[], []⟩).2.waiting (core.deferred.releaseDue now).2) :=
  core.enterDue_waiting _ _ _

theorem releaseDue_named (core : RingCore M Ep S P) (now : Nat) : Named (core.releaseDue now).1.overflow :=
  enterDue_named _ _ List.nodup_nil

/-- A sweep and a later sweep leave what the later one alone would have left, and report the
    same between them: the released lists follow on, each subscriber's figures add up, and
    no report names a subscriber twice. -/
theorem releaseDue_in_two (core : RingCore M Ep S P) {first second : Nat} (earlier : first ≤ second) :
    ((core.releaseDue first).2.releaseDue second).2 = (core.releaseDue second).2 ∧
      (core.releaseDue second).1.released =
        (core.releaseDue first).1.released ++ ((core.releaseDue first).2.releaseDue second).1.released ∧
      (∀ subscriber, charged subscriber (core.releaseDue second).1.overflow =
        charged subscriber (core.releaseDue first).1.overflow +
          charged subscriber ((core.releaseDue first).2.releaseDue second).1.overflow) ∧
      Named (core.releaseDue second).1.overflow ∧ Named (core.releaseDue first).1.overflow ∧
      Named ((core.releaseDue first).2.releaseDue second).1.overflow := by
  obtain ⟨due, rest⟩ := core.deferred.releaseDue_twice earlier
  -- the loop over the first part, from which both second parts start
  have swept := core.releaseDue_eq first
  have single := core.releaseDue_eq second
  have again := (core.releaseDue first).2.releaseDue_eq second
  rw [due, enterDue_append] at single
  rw [releaseDue_deferred, rest, congrArg Prod.snd swept, enterDue_waiting] at again
  generalize core.enterDue (core.deferred.releaseDue first).1 ⟨[], []⟩ = entered at swept single again
  obtain ⟨same, released, charges⟩ :=
    entered.2.enterDue_report ((core.deferred.releaseDue first).2.releaseDue second).1 entered.1
  refine ⟨?_, ?_, fun subscriber => ?_, core.releaseDue_named second, core.releaseDue_named first,
    (core.releaseDue first).2.releaseDue_named second⟩
  · rw [swept, again, single, same]
    rfl
  · rw [single, swept, again]
    exact released
  · rw [single, swept, again]
    exact charges subscriber

private def bothParked : RingCore Nat Nat Nat Nat :=
  let core : RingCore Nat Nat Nat Nat := ((RingCore.new 0 2).attach 7 2).2
  let core := ((core.append 10).2.append 11).2
  { core with deferred := ⟨some 2, 3, [⟨1, 5, 1, 12⟩, ⟨2, 5, 2, 13⟩], by decide, by decide, by decide⟩ }

theorem both_parked_in_two :
    (bothParked.releaseDue 1).1.overflow = [⟨7, 1⟩] ∧ (bothParked.releaseDue 2).1.overflow = [⟨7, 2⟩] ∧
      ((bothParked.releaseDue 1).2.releaseDue 2).2 = (bothParked.releaseDue 2).2 ∧
      charged 7 (bothParked.releaseDue 2).1.overflow = charged 7 (bothParked.releaseDue 1).1.overflow +
        charged 7 ((bothParked.releaseDue 1).2.releaseDue 2).1.overflow :=
  have twice := bothParked.releaseDue_in_two (show 1 ≤ 2 by decide)
  ⟨by decide +kernel, by decide +kernel, twice.1, twice.2.2.1 7⟩

end RingCore

end Brenn.Queue
