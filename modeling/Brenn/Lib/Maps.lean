import Mathlib

/-!
Ordered maps read by key.

The models keep a table as a `Std.TreeMap` and walk it through `toList`. A total
taken over the walk that only counts one key is the value stored there.
-/

namespace Brenn.Lib
open Std

universe u v w

variable {κ : Type u} {ν : Type v} [LinearOrder κ]

/-! Lookups after an update, with the keys compared by equality. -/

theorem lookup_insert (table : TreeMap κ ν) (k other : κ) (v : ν) :
    (table.insert k v)[other]? = if k = other then some v else table[other]? := by
  simp [TreeMap.getElem?_insert]

/-- A table read as if it had just been written with what it holds. -/
theorem lookup_held {table : TreeMap κ ν} {k : κ} {v : ν} (held : table[k]? = some v) (other : κ) :
    table[other]? = if k = other then some v else table[other]? := by
  split
  next same => rw [← same, held]
  next => rfl

theorem lookup_erase (table : TreeMap κ ν) (k other : κ) :
    (table.erase k)[other]? = if k = other then none else table[other]? := by
  simp [TreeMap.getElem?_erase]

theorem lookup_of_erase {table : TreeMap κ ν} {k other : κ} {v : ν} (found : (table.erase k)[other]? = some v) :
    table[other]? = some v := by
  rw [lookup_erase] at found
  split at found
  · cases found
  · exact found

theorem lookup_modify (table : TreeMap κ ν) (k other : κ) (f : ν → ν) :
    (table.modify k f)[other]? = if k = other then table[other]?.map f else table[other]? := by
  rw [TreeMap.getElem?_modify]
  by_cases same : k = other
  · subst same
    simp
  · simp [same]

private theorem filter_present {k : κ} {v : ν} {walk : List (κ × ν)} (distinct : walk.Pairwise fun a b => a.1 ≠ b.1)
    (present : (k, v) ∈ walk) : (walk.filter fun e => e.1 = k) = [(k, v)] := by
  induction walk with
  | nil => simp at present
  | cons e walk ih =>
    obtain ⟨elsewhere, rest⟩ := List.pairwise_cons.mp distinct
    rcases List.mem_cons.mp present with rfl | later
    · rw [List.filter_cons_of_pos (by simp), List.filter_eq_nil_iff.mpr]
      exact fun other member => by simpa using (elsewhere other member).symm
    · rw [List.filter_cons_of_neg (by simpa using elsewhere _ later), ih rest later]

/-- A walk meets a key once, with what is stored there. -/
theorem filter_toList_at (table : TreeMap κ ν) (k : κ) :
    (table.toList.filter fun e => e.1 = k) = (table[k]?.map fun v => (k, v)).toList := by
  cases stored : table[k]? with
  | none =>
    refine List.filter_eq_nil_iff.mpr fun e member same => ?_
    have held := TreeMap.mem_toList_iff_getElem?_eq_some.mp member
    rw [of_decide_eq_true same, stored] at held
    cases held
  | some v =>
    refine filter_present ?_ (TreeMap.mem_toList_iff_getElem?_eq_some.mpr stored)
    exact (TreeMap.distinct_keys_toList (t := table)).imp fun different same =>
      different (by rw [same]; exact ReflCmp.compare_self)

/-- Adding up what a walk holds under one key reads that key. -/
theorem sum_toList_at (table : TreeMap κ ν) (weight : ν → Nat) (k : κ) :
    (table.toList.map fun e => if e.1 = k then weight e.2 else 0).sum = (table[k]?.map weight).getD 0 := by
  have only : ∀ walk : List (κ × ν), (walk.map fun e => if e.1 = k then weight e.2 else 0).sum =
      ((walk.filter fun e => e.1 = k).map fun e => weight e.2).sum := by
    intro walk
    induction walk with
    | nil => rfl
    | cons e walk ih => by_cases same : e.1 = k <;> simp [same, ih]
  rw [only, filter_toList_at]
  cases table[k]? <;> simp

/-- What holds of every entry of a table after one of them is written. -/
theorem forall_lookup_insert {table : TreeMap κ ν} {k : κ} {v : ν} {holds : κ → ν → Prop} (here : holds k v)
    (others : ∀ other w, k ≠ other → table[other]? = some w → holds other w) :
    ∀ (other : κ) w, (table.insert k v)[other]? = some w → holds other w := by
  intro other w found
  rw [lookup_insert] at found
  split at found
  next same =>
    obtain rfl := same
    obtain rfl := Option.some.inj found
    exact here
  next different => exact others other w different found

/-- A map whose every lookup is another's under `f` is walked as the other is. -/
theorem toList_of_lookup {μ : Type w} {table : TreeMap κ ν} {other : TreeMap κ μ} {f : ν → μ}
    (same : ∀ k : κ, other[k]? = table[k]?.map f) : other.toList = table.toList.map fun e => (e.1, f e.2) := by
  have alike : other.Equiv (table.map fun _ v => f v) := by
    refine TreeMap.Equiv.of_forall_constGet?_eq fun k => ?_
    rw [same, TreeMap.getElem?_map]
  rw [alike.toList_eq, TreeMap.toList_map]

/-! Walks after an update, up to order. -/

theorem nodup_toList (table : TreeMap κ ν) : table.toList.Nodup :=
  (TreeMap.distinct_keys_toList (t := table)).imp fun different same =>
    different (by rw [same]; exact ReflCmp.compare_self)

/-- A table built by writing distinct keys holds under each key what was written there. -/
theorem lookup_foldl_insert {α : Type*} {key : α → κ} (val : α → ν) {xs : List α} (distinct : (xs.map key).Nodup)
    (table : TreeMap κ ν) (k : κ) :
    (xs.foldl (fun table x => table.insert (key x) (val x)) table)[k]? =
      ((xs.find? fun x => key x = k).map val).or table[k]? := by
  induction xs generalizing table with
  | nil => rfl
  | cons x xs ih =>
    obtain ⟨apart, rest⟩ := List.nodup_cons.mp distinct
    rw [List.foldl_cons, ih rest, List.find?_cons]
    by_cases same : key x = k
    · have absent : (xs.find? fun y => decide (key y = k)) = none := by
        refine List.find?_eq_none.mpr fun y member => ?_
        rw [decide_eq_true_eq, ← same]
        exact fun equal => apart (List.mem_map.mpr ⟨y, member, equal⟩)
      simp [same, absent]
    · simp [same, lookup_insert]

end Brenn.Lib
