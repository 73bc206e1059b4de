import Mathlib

/-!
Lists whose entries carry consecutive numbers.

Reading the numbers off in order gives an interval. Everything a front-edge comparison can decide
about such a list, and every cut by number, follows from that equation.
-/

namespace Brenn.Lib

universe u

variable {α : Type u} {key : α → Nat} {first : Nat} {xs ys : List α}

/-- Reading `key` along `xs` counts up from `first`. -/
def Numbered (key : α → Nat) (first : Nat) (xs : List α) : Prop :=
  xs.map key = List.range' first xs.length

@[simp] theorem numbered_nil : Numbered key first [] := rfl

theorem numbered_cons {x : α} :
    Numbered key first (x :: xs) ↔ key x = first ∧ Numbered key (first + 1) xs := by
  simp [Numbered, List.range'_succ]

theorem numbered_append :
    Numbered key first (xs ++ ys) ↔ Numbered key first xs ∧ Numbered key (first + xs.length) ys := by
  induction xs generalizing first with
  | nil => simp
  | cons x xs ih =>
    simp only [List.cons_append, numbered_cons, ih, List.length_cons, and_assoc]
    rw [show first + 1 + xs.length = first + (xs.length + 1) by omega]

theorem Numbered.drop (numbered : Numbered key first xs) {count : Nat} (fits : count ≤ xs.length) :
    Numbered key (first + count) (xs.drop count) := by
  rw [← List.take_append_drop count xs, numbered_append] at numbered
  simpa [List.length_take, Nat.min_eq_left fits] using numbered.2

theorem Numbered.snoc (numbered : Numbered key first xs) {x : α} (next : key x = first + xs.length) :
    Numbered key first (xs ++ [x]) :=
  numbered_append.mpr ⟨numbered, numbered_cons.mpr ⟨next, numbered_nil⟩⟩

theorem Numbered.key_head (numbered : Numbered key first xs) {x : α} (front : xs.head? = some x) :
    key x = first := by
  cases xs with
  | nil => simp at front
  | cons y ys =>
    obtain rfl : y = x := by simpa using front
    exact (numbered_cons.mp numbered).1

theorem Numbered.key_last (numbered : Numbered key first xs) {x : α} (back : xs.getLast? = some x) :
    key x + 1 = first + xs.length := by
  obtain ⟨ys, rfl⟩ := List.getLast?_eq_some_iff.mp back
  have last := (numbered_cons.mp (numbered_append.mp numbered).2).1
  simp only [List.length_append, List.length_cons, List.length_nil]
  omega

/-- The numbers present are exactly an interval. -/
theorem Numbered.mem_keys (numbered : Numbered key first xs) (number : Nat) :
    (∃ x ∈ xs, key x = number) ↔ first ≤ number ∧ number < first + xs.length := by
  rw [← List.mem_map, numbered, List.mem_range'_1]

theorem Numbered.key_bounds (numbered : Numbered key first xs) {x : α} (member : x ∈ xs) :
    first ≤ key x ∧ key x < first + xs.length :=
  (numbered.mem_keys (key x)).mp ⟨x, member, rfl⟩

/-- Selecting by a lower bound on the number is a cut. -/
theorem Numbered.filter_ge (numbered : Numbered key first xs) (bound : Nat) :
    xs.filter (fun x => decide (bound ≤ key x)) = xs.drop (bound - first) := by
  induction xs generalizing first with
  | nil => simp
  | cons x xs ih =>
    obtain ⟨here, rest⟩ := numbered_cons.mp numbered
    have tail := ih rest
    rcases Nat.lt_or_ge first bound with below | reached
    · rw [List.filter_cons_of_neg (by simp; omega), tail,
        show bound - first = (bound - (first + 1)) + 1 by omega, List.drop_succ_cons]
    · rw [List.filter_cons_of_pos (by simp; omega), tail,
        show bound - (first + 1) = 0 by omega, show bound - first = 0 by omega]
      simp

theorem Numbered.map_drop (numbered : Numbered key first xs) (count : Nat) :
    (xs.drop count).map key = List.range' (first + count) (xs.length - count) := by
  rw [List.map_drop, numbered, List.drop_range']
  simp

/-- The numbers at or above a bound, as an interval. -/
theorem Numbered.map_filter_ge (numbered : Numbered key first xs) (bound : Nat) :
    (xs.filter (fun x => decide (bound ≤ key x))).map key =
      List.range' (max first bound) (first + xs.length - max first bound) := by
  rw [numbered.filter_ge, numbered.map_drop]
  rcases Nat.le_total bound first with low | high
  · simp [Nat.sub_eq_zero_of_le low, Nat.max_eq_left low]
  · rw [Nat.max_eq_right high, Nat.add_sub_cancel' high]
    congr 1
    omega

theorem Numbered.countP_ge (numbered : Numbered key first xs) (bound : Nat) :
    xs.countP (fun x => decide (bound ≤ key x)) = first + xs.length - max first bound := by
  rw [List.countP_eq_length_filter, ← List.length_map key, numbered.map_filter_ge, List.length_range']

theorem Numbered.pairwise (numbered : Numbered key first xs) : xs.Pairwise fun x y => key x < key y := by
  have increasing : (xs.map key).Pairwise (· < ·) := by
    rw [numbered]
    exact List.pairwise_lt_range'
  exact List.pairwise_map.mp increasing

/-! ### The newest entries -/

/-- The last `count` entries. -/
def newest (count : Nat) (xs : List α) : List α := xs.drop (xs.length - count)

@[simp] theorem length_newest (count : Nat) (xs : List α) : (newest count xs).length = min count xs.length := by
  rw [newest, List.length_drop]
  omega

theorem newest_of_length_le {count : Nat} (fits : xs.length ≤ count) : newest count xs = xs := by
  rw [newest, Nat.sub_eq_zero_of_le fits, List.drop_zero]

@[simp] theorem newest_newest (few many : Nat) (xs : List α) :
    newest few (newest many xs) = newest (min few many) xs := by
  simp only [newest, List.drop_drop, List.length_drop]
  congr 1
  omega

/-- Keeping the newest after each addition is keeping the newest of everything added. -/
theorem newest_snoc (count : Nat) (xs : List α) (x : α) :
    newest count (newest count xs ++ [x]) = newest count (xs ++ [x]) := by
  rcases Nat.le_total xs.length count with fits | more
  · rw [newest_of_length_le fits]
  · have length : (newest count xs).length = count := by rw [length_newest, Nat.min_eq_left more]
    have cut (ys : List α) (long : count ≤ ys.length) :
        newest count (ys ++ [x]) = ys.drop (ys.length + 1 - count) ++ [x].drop (1 - count) := by
      rw [newest, List.drop_append, List.length_append, List.length_singleton]
      congr 2
      omega
    rw [cut _ length.ge, cut xs more, length]
    simp only [newest, List.drop_drop]
    congr 2
    omega

theorem Numbered.newest (numbered : Numbered key first xs) (count : Nat) :
    Numbered key (first + xs.length - (newest count xs).length) (newest count xs) := by
  have cut := numbered.drop (Nat.sub_le xs.length count)
  rw [length_newest]
  rwa [show first + xs.length - min count xs.length = first + (xs.length - count) by omega]

/-- Selecting by a lower bound on the number keeps the newest. -/
theorem Numbered.filter_newest (numbered : Numbered key first xs) (bound : Nat) :
    xs.filter (fun x => decide (bound ≤ key x)) = Brenn.Lib.newest (first + xs.length - bound) xs := by
  rw [numbered.filter_ge, Brenn.Lib.newest]
  rcases Nat.le_total bound (first + xs.length) with inside | beyond
  · congr 1
    omega
  · rw [List.drop_of_length_le (by omega), List.drop_of_length_le (by omega)]

end Brenn.Lib
