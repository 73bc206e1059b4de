import Mathlib

/-!
Journals whose records tile an interval.

When the records, read in order, spell out an interval, every number of it is skipped or served
by exactly one record, the served numbers increase, and the totals add up.
-/

namespace Brenn.Lib

universe u

variable {ρ : Type u} {skipped served : ρ → List Nat} {first stop : Nat} {journal : List ρ}

/-- The records of `journal`, each its skipped numbers and then its served ones, spell out
    the numbers from `first` up to but not including `stop`. -/
structure Tiles (skipped served : ρ → List Nat) (first stop : Nat) (journal : List ρ) : Prop where
  ordered : first ≤ stop
  spelled : journal.flatMap (fun record => skipped record ++ served record) = List.range' first (stop - first)

theorem tiles_nil (first : Nat) : Tiles skipped served first first ([] : List ρ) :=
  ⟨Nat.le_refl first, by simp⟩

/-- A record that spells out the numbers from `stop` on extends the tiling. -/
theorem Tiles.snoc (tiles : Tiles skipped served first stop journal) {record : ρ} {next : Nat}
    (forward : stop ≤ next) (spells : skipped record ++ served record = List.range' stop (next - stop)) :
    Tiles skipped served first next (journal ++ [record]) := by
  have ordered := tiles.ordered
  refine ⟨ordered.trans forward, ?_⟩
  rw [List.flatMap_append, tiles.spelled, List.flatMap_singleton, spells,
    show next - first = (stop - first) + (next - stop) by omega]
  have joined := List.range'_append_1 (s := first) (m := stop - first) (n := next - stop)
  rwa [show first + (stop - first) = stop by omega] at joined

private theorem flatMap_sublist {f g : ρ → List Nat} (inside : ∀ record, (f record).Sublist (g record))
    (journal : List ρ) : (journal.flatMap f).Sublist (journal.flatMap g) := by
  induction journal with
  | nil => simp
  | cons record journal ih =>
    simp only [List.flatMap_cons]
    exact (inside record).append ih

theorem Tiles.increasing (tiles : Tiles skipped served first stop journal) :
    (journal.flatMap served).Pairwise (· < ·) := by
  have inside := flatMap_sublist (fun record => List.sublist_append_right (skipped record) (served record)) journal
  rw [tiles.spelled] at inside
  exact (List.pairwise_lt_range' (s := first) (n := stop - first)).sublist inside

theorem Tiles.total (tiles : Tiles skipped served first stop journal) :
    (journal.flatMap served).length + (journal.map fun record => (skipped record).length).sum = stop - first := by
  have length := congrArg List.length tiles.spelled
  rw [List.length_range', List.length_flatMap] at length
  rw [List.length_flatMap, ← length]
  clear tiles length
  induction journal with
  | nil => rfl
  | cons record journal ih =>
    simp only [List.map_cons, List.sum_cons, List.length_append] at ih ⊢
    omega

private theorem sum_count_eq_countP {f : ρ → List Nat} (distinct : ∀ record ∈ journal, (f record).Nodup) (number : Nat) :
    (journal.map fun record => (f record).count number).sum =
      journal.countP fun record => decide (number ∈ f record) := by
  induction journal with
  | nil => rfl
  | cons record journal ih =>
    have rest := ih fun other member => distinct other (List.mem_cons_of_mem record member)
    rw [List.map_cons, List.sum_cons, rest, List.countP_cons,
      List.Nodup.count (distinct record List.mem_cons_self)]
    by_cases here : number ∈ f record <;> simp [here, Nat.add_comm]

/-- Every number of the interval is skipped or served by exactly one record. -/
theorem Tiles.once (tiles : Tiles skipped served first stop journal) {number : Nat}
    (low : first ≤ number) (high : number < stop) :
    (journal.countP fun record => decide (number ∈ served record)) +
      (journal.countP fun record => decide (number ∈ skipped record)) = 1 := by
  have nodup : (journal.flatMap fun record => skipped record ++ served record).Nodup := by
    rw [tiles.spelled]
    exact List.nodup_range'
  have records : ∀ record ∈ journal, (skipped record ++ served record).Nodup := fun record member =>
    nodup.sublist (by
      obtain ⟨before, after, rfl⟩ := List.append_of_mem member
      simp only [List.flatMap_append, List.flatMap_cons]
      exact (List.sublist_append_left _ _).trans (List.sublist_append_right _ _))
  have counted : (journal.flatMap fun record => skipped record ++ served record).count number = 1 := by
    rw [List.Nodup.count nodup, tiles.spelled, if_pos (List.mem_range'_1.mpr (by omega))]
  rw [List.count_flatMap] at counted
  rw [← sum_count_eq_countP fun record member => (List.nodup_append.mp (records record member)).2.1,
    ← sum_count_eq_countP fun record member => (List.nodup_append.mp (records record member)).1, ← counted,
    Nat.add_comm]
  clear counted records nodup tiles
  induction journal with
  | nil => rfl
  | cons record journal ih =>
    simp only [List.map_cons, List.sum_cons, Function.comp_apply, List.count_append] at ih ⊢
    omega

end Brenn.Lib
