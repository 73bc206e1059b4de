import Brenn.Lib.Keyed
import Brenn.Lib.Sorted

/-!
The deferred set: messages parked until a release time.

Entries are kept ascending by `(releaseAt, id)`, so the due ones are a prefix. The
order and the freshness of ids are fields of the set.
-/

namespace Brenn.Queue
open Brenn.Lib

universe u v

variable {M : Type u} {P : Type v}

/-- One parked message under the identity that parked it. -/
structure Deferred (M : Type u) (P : Type v) where
  id : Nat
  sender : P
  releaseAt : Nat
  message : M
  deriving Repr, DecidableEq

/-- Release order: by release time, equal times in park order. -/
def Deferred.Before (left right : Deferred M P) : Prop :=
  left.releaseAt < right.releaseAt ∨ left.releaseAt = right.releaseAt ∧ left.id < right.id

instance : DecidableRel (Deferred.Before (M := M) (P := P)) := fun _ _ => inferInstanceAs (Decidable (_ ∨ _))

instance : IsTrans (Deferred M P) Deferred.Before where
  trans left middle right first second := by
    unfold Deferred.Before at *
    omega

instance : Std.Irrefl (Deferred.Before (M := M) (P := P)) where
  irrefl entry before := by
    unfold Deferred.Before at before
    omega

theorem Deferred.Before.apart {left right : Deferred M P} (different : left.id ≠ right.id) :
    left.Before right ∨ right.Before left := by
  unfold Deferred.Before
  omega

structure QuotaExceeded where
  cap : Nat
  deriving Repr, DecidableEq

structure NoSuchDeferred where
  id : Nat
  deriving Repr, DecidableEq

structure DeferredSet (M : Type u) (P : Type v) where
  cap : Option Nat
  nextId : Nat
  entries : List (Deferred M P)
  sorted : entries.Pairwise Deferred.Before
  fresh : ∀ entry ∈ entries, entry.id < nextId
  unique : (entries.map Deferred.id).Nodup

namespace DeferredSet

def new (cap : Option Nat) : DeferredSet M P where
  cap := cap
  nextId := 1
  entries := []
  sorted := .nil
  fresh := by simp
  unique := .nil

def setCap (set : DeferredSet M P) (cap : Option Nat) : DeferredSet M P := { set with cap := cap }

def len (set : DeferredSet M P) : Nat := set.entries.length

def refusal (set : DeferredSet M P) : Option QuotaExceeded :=
  match set.cap with
  | some cap => if set.entries.length ≥ cap then some ⟨cap⟩ else none
  | none => none

/-- The set with `entry`, whose id is in use nowhere else, put at its place. -/
def restore (set : DeferredSet M P) (entry : Deferred M P) (known : entry.id < set.nextId)
    (absent : ∀ other ∈ set.entries, other.id ≠ entry.id) : DeferredSet M P :=
  { set with
    entries := insertBy Deferred.Before entry set.entries
    sorted := pairwise_insertBy set.sorted fun other member => Deferred.Before.apart (absent other member)
    fresh := by
      intro other member
      rcases mem_insertBy.mp member with rfl | old
      · exact known
      · exact set.fresh other old
    unique := by
      rw [((insertBy_perm _ _).map Deferred.id).nodup_iff, List.map_cons, List.nodup_cons]
      refine ⟨fun member => ?_, set.unique⟩
      obtain ⟨other, old, same⟩ := List.mem_map.mp member
      exact absent other old same }

def park (set : DeferredSet M P) (sender : P) (message : M) (releaseAt : Nat) :
    Except QuotaExceeded (Nat × DeferredSet M P) :=
  match set.refusal with
  | some refused => .error refused
  | none =>
    let numbered : DeferredSet M P :=
      { set with
        nextId := set.nextId + 1
        fresh := fun entry member => Nat.lt_succ_of_lt (set.fresh entry member) }
    .ok (set.nextId, numbered.restore ⟨set.nextId, sender, releaseAt, message⟩ (Nat.lt_succ_self _)
      fun other member => (set.fresh other member).ne)

def nextRelease (set : DeferredSet M P) : Option Nat := set.entries.head?.map Deferred.releaseAt

/-- Any order-preserving selection of the entries is again a set. -/
def keep (set : DeferredSet M P) (entries : List (Deferred M P)) (kept : entries.Sublist set.entries) :
    DeferredSet M P :=
  { set with
    entries := entries
    sorted := set.sorted.sublist kept
    fresh := fun entry member => set.fresh entry (kept.subset member)
    unique := set.unique.sublist (kept.map Deferred.id) }

/-- Remove and return the entries due at or before `now`, in release order. -/
def releaseDue (set : DeferredSet M P) (now : Nat) : List (Deferred M P) × DeferredSet M P :=
  let due := (set.entries.takeWhile fun entry => decide (entry.releaseAt ≤ now)).length
  (set.entries.take due, set.keep (set.entries.drop due) (List.drop_sublist due set.entries))

def forSender [DecidableEq P] (set : DeferredSet M P) (sender : P) : List (Deferred M P) :=
  set.entries.filter fun entry => decide (entry.sender = sender)

def get (set : DeferredSet M P) (id : Nat) : Option (Deferred M P) :=
  set.entries.find? fun entry => decide (entry.id = id)

def without (set : DeferredSet M P) (id : Nat) : DeferredSet M P :=
  set.keep (set.entries.eraseP fun entry => decide (entry.id = id)) List.eraseP_sublist

def cancel (set : DeferredSet M P) (id : Nat) : Option (Deferred M P × DeferredSet M P) :=
  (set.get id).map fun entry => (entry, set.without id)

def rewrite (set : DeferredSet M P) (id : Nat) (message : M) : DeferredSet M P :=
  { set with
    entries := set.entries.map fun entry => if entry.id = id then { entry with message := message } else entry
    sorted := by
      refine List.pairwise_map.mpr (set.sorted.imp fun {left right} before => ?_)
      unfold Deferred.Before at *
      split <;> split <;> exact before
    fresh := by
      intro entry member
      obtain ⟨old, oldMember, rfl⟩ := List.mem_map.mp member
      have := set.fresh old oldMember
      split <;> exact this
    unique := by
      rw [List.map_map]
      convert set.unique using 2
      funext entry
      simp only [Function.comp_apply]
      split <;> rfl }

theorem get_eq_some {set : DeferredSet M P} {id : Nat} {entry : Deferred M P} (found : set.get id = some entry) :
    entry ∈ set.entries ∧ entry.id = id := by
  refine ⟨List.mem_of_find?_eq_some found, ?_⟩
  simpa using List.find?_some found

theorem without_absent (set : DeferredSet M P) (id : Nat) :
    ∀ entry ∈ (set.without id).entries, entry.id ≠ id := by
  intro entry member same
  have unique := set.unique
  simp only [without, keep] at member
  generalize set.entries = entries at member unique
  induction entries with
  | nil => simp at member
  | cons first rest ih =>
    obtain ⟨elsewhere, rest_unique⟩ := List.nodup_cons.mp unique
    by_cases here : first.id = id
    · rw [List.eraseP_cons_of_pos (by simpa using here)] at member
      exact elsewhere (here.trans same.symm ▸ List.mem_map_of_mem member)
    · rw [List.eraseP_cons_of_neg (by simpa using here)] at member
      rcases List.mem_cons.mp member with rfl | later
      · exact here same
      · exact ih later rest_unique

/-- Replace the payload, the release time or both of the entry under `id`, keeping its id. -/
def edit (set : DeferredSet M P) (id : Nat) (message : Option M) (releaseAt : Option Nat) :
    Except NoSuchDeferred (DeferredSet M P) :=
  if (set.get id).isNone then .error ⟨id⟩
  else
    let set := match message with
      | some message => set.rewrite id message
      | none => set
    match releaseAt with
    | none => .ok set
    | some releaseAt =>
      match found : set.get id with
      | none => .ok set
      | some entry => .ok ((set.without id).restore { entry with releaseAt := releaseAt }
          (set.fresh entry (get_eq_some found).1)
          (fun other member => (get_eq_some found).2 ▸ set.without_absent id other member))

/-! ### The entries each operation leaves -/

variable (set : DeferredSet M P)

theorem park_entries (room : set.refusal = none) (sender : P) (message : M) (releaseAt : Nat) :
    ∃ after, set.park sender message releaseAt = .ok (set.nextId, after) ∧ after.cap = set.cap ∧
      after.entries = insertBy Deferred.Before ⟨set.nextId, sender, releaseAt, message⟩ set.entries := by
  simp only [park, room]
  exact ⟨_, rfl, rfl, rfl⟩

theorem park_nextId {set after : DeferredSet M P} {sender : P} {message : M} {releaseAt id : Nat}
    (parked : set.park sender message releaseAt = .ok (id, after)) : after.nextId = set.nextId + 1 := by
  unfold park at parked
  split at parked
  · simp at parked
  · rw [← (Prod.mk.inj (Except.ok.inj parked)).2]
    rfl

theorem edit_nextId {set after : DeferredSet M P} {id : Nat} {message : Option M} {releaseAt : Option Nat}
    (edited : set.edit id message releaseAt = .ok after) : after.nextId = set.nextId := by
  have same : (match message with
      | some message => set.rewrite id message
      | none => set).nextId = set.nextId := by cases message <;> rfl
  unfold edit at edited
  dsimp only at edited
  split at edited
  · simp at edited
  · split at edited
    · rwa [← Except.ok.inj edited]
    · split at edited <;> rwa [← Except.ok.inj edited]

theorem releaseDue_entries (now : Nat) :
    (set.releaseDue now).1 = set.entries.filter (fun entry => decide (entry.releaseAt ≤ now)) ∧
      (set.releaseDue now).2.entries = set.entries.filter fun entry => !decide (entry.releaseAt ≤ now) := by
  obtain ⟨taken, dropped⟩ := takeWhile_eq_filter set.sorted
    (show ∀ x y : Deferred M P, x.Before y → decide (y.releaseAt ≤ now) = true → decide (x.releaseAt ≤ now) = true by
      intro x y before due
      have due := of_decide_eq_true due
      unfold Deferred.Before at before
      exact decide_eq_true (by omega))
  obtain ⟨due, rest⟩ := take_drop_takeWhile (fun entry : Deferred M P => decide (entry.releaseAt ≤ now)) set.entries
  exact ⟨due.trans taken, rest.trans dropped⟩

theorem without_entries (id : Nat) :
    (set.without id).entries = set.entries.filter fun entry => decide (entry.id ≠ id) := by
  have unique := set.unique
  simp only [without, keep]
  generalize set.entries = entries at unique
  induction entries with
  | nil => rfl
  | cons first rest ih =>
    obtain ⟨elsewhere, rest_unique⟩ := List.nodup_cons.mp unique
    by_cases here : first.id = id
    · rw [List.eraseP_cons_of_pos (by simpa using here), List.filter_cons_of_neg (by simpa using here), eq_comm,
        List.filter_eq_self]
      intro other member
      exact decide_eq_true fun same => elsewhere (here.trans same.symm ▸ List.mem_map_of_mem member)
    · rw [List.eraseP_cons_of_neg (by simpa using here), List.filter_cons_of_pos (by simpa using here), ih rest_unique]

theorem get_of_mem {entry : Deferred M P} (member : entry ∈ set.entries) : set.get entry.id = some entry :=
  find_at_key set.unique member

theorem entries_eq_insertBy {entry : Deferred M P} (member : entry ∈ set.entries) :
    set.entries = insertBy Deferred.Before entry (set.entries.filter fun other => decide (other.id ≠ entry.id)) := by
  have sorted : (set.entries.filter fun other => decide (other.id ≠ entry.id)).Pairwise Deferred.Before :=
    set.sorted.filter _
  refine eq_of_perm_of_pairwise set.sorted (pairwise_insertBy sorted ?_) (.trans ?_ (insertBy_perm _ _).symm)
  · intro other inside
    exact Deferred.Before.apart (of_decide_eq_true (List.mem_filter.mp inside).2)
  · simpa using map_at_key_perm set.unique member fun other => other

theorem rewrite_entry {entry : Deferred M P} (member : entry ∈ set.entries) (message : M) :
    { entry with message := message } ∈ (set.rewrite entry.id message).entries ∧
      ((set.rewrite entry.id message).entries.filter fun other => decide (other.id ≠ entry.id)) =
        set.entries.filter fun other => decide (other.id ≠ entry.id) := by
  refine ⟨List.mem_map.mpr ⟨entry, member, if_pos rfl⟩, ?_⟩
  obtain ⟨before, after, split, elsewhere⟩ := split_at_key set.unique member
  simp only [rewrite, split]
  rw [map_at_key (fun other => { other with message := message }) elsewhere, filter_at_key elsewhere]
  exact filter_at_key (x := { entry with message := message }) elsewhere

/-- An edit takes the entry out and puts it back at the place of its new release time. -/
theorem edit_entries {entry : Deferred M P} (member : entry ∈ set.entries) (message : Option M)
    (releaseAt : Option Nat) :
    ∃ after, set.edit entry.id message releaseAt = .ok after ∧ after.cap = set.cap ∧
      after.entries = insertBy Deferred.Before
        { entry with message := message.getD entry.message, releaseAt := releaseAt.getD entry.releaseAt }
        (set.entries.filter fun other => decide (other.id ≠ entry.id)) := by
  -- the payload first
  obtain ⟨rewritten, chosen, cap, held, others⟩ : ∃ rewritten : DeferredSet M P,
      (match message with
        | some message => set.rewrite entry.id message
        | none => set) = rewritten ∧ rewritten.cap = set.cap ∧
      { entry with message := message.getD entry.message } ∈ rewritten.entries ∧
      (rewritten.entries.filter fun other => decide (other.id ≠ entry.id)) =
        set.entries.filter fun other => decide (other.id ≠ entry.id) := by
    cases message with
    | none => exact ⟨set, rfl, rfl, member, rfl⟩
    | some message =>
      obtain ⟨held, others⟩ := set.rewrite_entry member message
      exact ⟨_, rfl, rfl, held, others⟩
  subst chosen
  have present : ¬ (set.get entry.id).isNone := by simp [set.get_of_mem member]
  have place := entries_eq_insertBy _ held
  rw [others] at place
  simp only [edit, if_neg present]
  cases releaseAt with
  | none => exact ⟨_, rfl, cap, place⟩
  | some releaseAt =>
    have found := get_of_mem _ held
    simp only
    split
    next missing => simp [missing] at found
    next other same =>
      obtain rfl := Option.some.inj (found.symm.trans same)
      refine ⟨_, rfl, cap, ?_⟩
      simp only [restore, without_entries, others]
      rfl

end DeferredSet

end Brenn.Queue
