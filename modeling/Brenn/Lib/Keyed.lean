import Mathlib

/-!
Lists whose entries carry distinct keys, as the rows of a table do.

The entry under a key splits the list, so an update or a deletion by key is a
change at one place.
-/

namespace Brenn.Lib

universe u v

variable {α : Type u} {κ : Type v} {key : α → κ} {xs : List α} {x : α}

/-- No other entry carries the key of `x`. -/
theorem split_at_key (distinct : (xs.map key).Nodup) (member : x ∈ xs) :
    ∃ before after, xs = before ++ x :: after ∧ ∀ y ∈ before ++ after, key y ≠ key x := by
  obtain ⟨before, after, rfl⟩ := List.append_of_mem member
  refine ⟨before, after, rfl, ?_⟩
  intro y elsewhere same
  rw [List.map_append, List.map_cons, List.nodup_middle, List.nodup_cons, ← List.map_append] at distinct
  exact distinct.1 (same ▸ List.mem_map_of_mem elsewhere)

section Decidable

variable [DecidableEq κ] {before after : List α}

/-- Updating the entry under a key leaves the rest alone. -/
theorem map_at_key (update : α → α) (elsewhere : ∀ y ∈ before ++ after, key y ≠ key x) :
    (before ++ x :: after).map (fun y => if key y = key x then update y else y) = before ++ update x :: after := by
  have unchanged (side : List α) (inside : ∀ y ∈ side, key y ≠ key x) :
      side.map (fun y => if key y = key x then update y else y) = side := by
    refine (List.map_congr_left fun y member => ?_).trans (List.map_id side)
    rw [if_neg (inside y member)]
    rfl
  rw [List.map_append, List.map_cons, if_pos rfl,
    unchanged before fun y member => elsewhere y (List.mem_append_left after member),
    unchanged after fun y member => elsewhere y (List.mem_append_right before member)]

theorem filter_at_key (elsewhere : ∀ y ∈ before ++ after, key y ≠ key x) :
    (before ++ x :: after).filter (fun y => decide (key y ≠ key x)) = before ++ after := by
  rw [List.filter_append, List.filter_cons_of_neg (by simp), ← List.filter_append, List.filter_eq_self]
  intro y member
  exact decide_eq_true (elsewhere y member)

/-- An update by key, up to order, is a deletion and an insertion. -/
theorem map_at_key_perm (distinct : (xs.map key).Nodup) (member : x ∈ xs) (update : α → α) :
    (xs.map fun y => if key y = key x then update y else y).Perm
      (update x :: xs.filter fun y => decide (key y ≠ key x)) := by
  obtain ⟨before, after, rfl, elsewhere⟩ := split_at_key distinct member
  rw [map_at_key update elsewhere, filter_at_key elsewhere]
  exact List.perm_middle

theorem find_at_key (distinct : (xs.map key).Nodup) (member : x ∈ xs) :
    xs.find? (fun y => decide (key y = key x)) = some x := by
  cases found : xs.find? fun y => decide (key y = key x) with
  | none =>
    have absent := List.find?_eq_none.mp found x member
    simp at absent
  | some y =>
    have same : key y = key x := by simpa using List.find?_some found
    rw [List.inj_on_of_nodup_map distinct (List.mem_of_find?_eq_some found) member same]

end Decidable

/-- Selecting entries by the keys of a list of entries gives back the list. -/
theorem filter_keys_perm [BEq κ] [LawfulBEq κ] {chosen : List α} (distinct : (xs.map key).Nodup)
    (inside : ∀ y ∈ chosen, y ∈ xs) (nodup : chosen.Nodup) :
    (xs.filter fun y => (chosen.map key).contains (key y)).Perm chosen := by
  refine (List.perm_ext_iff_of_nodup (distinct.of_map.filter _) nodup).mpr fun y => ?_
  simp only [List.mem_filter, List.contains_iff_mem, List.mem_map]
  constructor
  · rintro ⟨member, other, held, same⟩
    rwa [← List.inj_on_of_nodup_map distinct (inside other held) member same]
  · intro held
    exact ⟨inside y held, y, held, rfl⟩

end Brenn.Lib
