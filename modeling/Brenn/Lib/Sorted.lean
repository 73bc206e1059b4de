import Mathlib

/-!
Insertion into a list kept in strict order, and the order a query asks for.

`insertBy before x xs` puts `x` at the partition point of `xs`. `orderBy before xs` lists `xs` in
that order; where any two entries compare there is one such list.
-/

namespace Brenn.Lib

universe u

variable {α : Type u} {before : α → α → Prop} [DecidableRel before]

/-- Insert at the partition point of the entries that come before `x`. -/
def insertBy (before : α → α → Prop) [DecidableRel before] (x : α) (xs : List α) : List α :=
  xs.takeWhile (fun y => decide (before y x)) ++ x :: xs.dropWhile (fun y => decide (before y x))

theorem insertBy_cons (x y : α) (ys : List α) :
    insertBy before x (y :: ys) = if before y x then y :: insertBy before x ys else x :: y :: ys := by
  by_cases early : before y x <;> simp [insertBy, early]

theorem insertBy_perm (x : α) (xs : List α) : (insertBy before x xs).Perm (x :: xs) := by
  unfold insertBy
  refine List.perm_middle.trans ?_
  rw [List.takeWhile_append_dropWhile]

@[simp] theorem mem_insertBy {x y : α} {xs : List α} : y ∈ insertBy before x xs ↔ y = x ∨ y ∈ xs := by
  rw [(insertBy_perm x xs).mem_iff, List.mem_cons]

theorem pairwise_insertBy [IsTrans α before] {x : α} {xs : List α} (sorted : xs.Pairwise before)
    (apart : ∀ y ∈ xs, before y x ∨ before x y) : (insertBy before x xs).Pairwise before := by
  induction xs with
  | nil => simp [insertBy]
  | cons y ys ih =>
    obtain ⟨first, rest⟩ := List.pairwise_cons.mp sorted
    have placed := ih rest fun z member => apart z (List.mem_cons_of_mem y member)
    unfold insertBy at placed ⊢
    by_cases early : before y x
    · simp only [List.takeWhile_cons, List.dropWhile_cons, early, decide_true, if_true, List.cons_append]
      refine List.pairwise_cons.mpr ⟨fun z member => ?_, placed⟩
      rcases mem_insertBy.mp member with rfl | old
      · exact early
      · exact first z old
    · -- `x` goes in front: the head is later, and everything behind it later still
      have late : before x y := (apart y List.mem_cons_self).resolve_left early
      simp only [List.takeWhile_cons, List.dropWhile_cons, early, decide_false, Bool.false_eq_true,
        if_false, List.nil_append]
      refine List.pairwise_cons.mpr ⟨fun z member => ?_, sorted⟩
      rcases List.mem_cons.mp member with rfl | later
      · exact late
      · exact IsTrans.trans x y z late (first z later)

/-- The entries of a list, each put at its place. -/
def orderBy (before : α → α → Prop) [DecidableRel before] (xs : List α) : List α :=
  xs.foldr (insertBy before) []

theorem orderBy_perm (xs : List α) : (orderBy before xs).Perm xs := by
  induction xs with
  | nil => exact .refl []
  | cons x xs ih => exact (insertBy_perm x _).trans (ih.cons x)

@[simp] theorem mem_orderBy {x : α} {xs : List α} : x ∈ orderBy before xs ↔ x ∈ xs :=
  (orderBy_perm xs).mem_iff

theorem pairwise_orderBy [IsTrans α before] {xs : List α}
    (apart : xs.Pairwise fun x y => before x y ∨ before y x) : (orderBy before xs).Pairwise before := by
  induction xs with
  | nil => exact .nil
  | cons x xs ih =>
    obtain ⟨first, rest⟩ := List.pairwise_cons.mp apart
    refine pairwise_insertBy (ih rest) fun y member => ?_
    exact (first y (mem_orderBy.mp member)).symm

omit [DecidableRel before] in
/-- There is one strictly ordered list of given entries. -/
theorem eq_of_perm_of_pairwise [IsTrans α before] [Std.Irrefl before] {xs ys : List α}
    (left : xs.Pairwise before) (right : ys.Pairwise before) (same : xs.Perm ys) : xs = ys := by
  refine List.Perm.eq_of_pairwise ?_ left right same
  intro x y _ _ forth back
  exact absurd (IsTrans.trans x y x forth back) (Std.Irrefl.irrefl x)

/-- A list in strict order is what ordering any rearrangement of it gives. -/
theorem orderBy_eq [IsTrans α before] [Std.Irrefl before] {xs ys : List α} (sorted : ys.Pairwise before)
    (same : ys.Perm xs) : orderBy before xs = ys := by
  have apart : xs.Pairwise fun x y => before x y ∨ before y x :=
    same.pairwise (sorted.imp fun ordered => Or.inl ordered) fun comparable => comparable.symm
  exact eq_of_perm_of_pairwise (pairwise_orderBy apart) sorted ((orderBy_perm xs).trans same.symm)

theorem orderBy_filter [IsTrans α before] [Std.Irrefl before] {xs : List α}
    (apart : xs.Pairwise fun x y => before x y ∨ before y x) (wanted : α → Bool) :
    orderBy before (xs.filter wanted) = (orderBy before xs).filter wanted :=
  orderBy_eq ((pairwise_orderBy apart).filter wanted) ((orderBy_perm xs).filter wanted)

theorem take_filterMap {α β : Type u} {f : α → Option β} {xs : List α} (all : ∀ x ∈ xs, (f x).isSome)
    (count : Nat) : (xs.take count).filterMap f = (xs.filterMap f).take count := by
  induction xs generalizing count with
  | nil => simp
  | cons x xs ih =>
    obtain ⟨y, found⟩ := Option.isSome_iff_exists.mp (all x List.mem_cons_self)
    cases count with
    | zero => simp
    | succ count =>
      rw [List.take_succ_cons, List.filterMap_cons_some found, List.filterMap_cons_some found, List.take_succ_cons,
        ih fun z member => all z (List.mem_cons_of_mem x member)]

/-- The prefix a predicate holds on, and the rest, by the length of the prefix. -/
theorem take_drop_takeWhile (wanted : α → Bool) (xs : List α) :
    xs.take (xs.takeWhile wanted).length = xs.takeWhile wanted ∧
      xs.drop (xs.takeWhile wanted).length = xs.dropWhile wanted := by
  induction xs with
  | nil => exact ⟨rfl, rfl⟩
  | cons x xs ih =>
    by_cases here : wanted x = true
    · simp [here, ih]
    · simp [here]

omit [DecidableRel before] in
/-- Cutting a sorted list where a downward closed property ends selects by the property. -/
theorem takeWhile_eq_filter {xs : List α} (sorted : xs.Pairwise before) {wanted : α → Bool}
    (closed : ∀ x y, before x y → wanted y → wanted x) :
    xs.takeWhile wanted = xs.filter wanted ∧ xs.dropWhile wanted = xs.filter fun x => !wanted x := by
  induction xs with
  | nil => simp
  | cons x xs ih =>
    obtain ⟨first, rest⟩ := List.pairwise_cons.mp sorted
    obtain ⟨taken, dropped⟩ := ih rest
    by_cases here : wanted x
    · simp [here, taken, dropped]
    · -- nothing behind `x` is wanted either
      have later : ∀ y ∈ xs, ¬ wanted y := fun y member wants => here (closed x y (first y member) wants)
      constructor
      · rw [List.takeWhile_cons_of_neg here, List.filter_cons_of_neg here, List.filter_eq_nil_iff.mpr later]
      · rw [List.dropWhile_cons_of_neg here, eq_comm, List.filter_eq_self]
        intro y member
        rcases List.mem_cons.mp member with rfl | inside
        · simpa using here
        · simpa using later y inside

/-- Insertion commutes with a renaming that keeps the comparisons it makes. -/
theorem insertBy_map {β : Type u} {after : β → β → Prop} [DecidableRel after] (f : α → β) {x : α} {xs : List α}
    (same : ∀ y ∈ xs, after (f y) (f x) ↔ before y x) :
    insertBy after (f x) (xs.map f) = (insertBy before x xs).map f := by
  induction xs with
  | nil => rfl
  | cons y ys ih =>
    have rest := ih fun z member => same z (List.mem_cons_of_mem y member)
    have here := same y List.mem_cons_self
    rw [List.map_cons, insertBy_cons, insertBy_cons, rest]
    by_cases early : before y x
    · rw [if_pos early, if_pos (here.mpr early), List.map_cons]
    · rw [if_neg early, if_neg fun later => early (here.mp later), List.map_cons, List.map_cons]

end Brenn.Lib
