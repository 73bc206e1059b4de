import Brenn.Queue.Wakes
import Brenn.Surface.Stores

/-!
Losses the peer reports.

A store keeps, beside the positions, one count per reader of what the peer said it dropped,
handed over with the reader's next window. A re-attach at depth zero gives the position up
and leaves the count behind, where the next window of the now sampled reader reports it. A detach
drops what waits.
-/

namespace Brenn.Queue.RingCore
open Brenn.Lib Std

variable {M Ep S P : Type*} [LinearOrder S] {core next : RingCore M Ep S P}

theorem unserved_of_window {subscriber : S} {pushLimit retainLimit : Nat}
    (cut : core.window subscriber pushLimit retainLimit = (none, next)) :
    0 < pushLimit ∧ core.cursors[subscriber]? = none := by
  unfold window at cut
  split at cut
  next absent =>
    split at cut
    next pushes => exact ⟨pushes, absent⟩
    next => cases cut
  next => cases cut

/-- A window cut at depth zero asks for no advance. -/
theorem window_zero_advanceSpan {subscriber : S} {retainLimit : Nat} {read : Window M}
    (cut : core.window subscriber 0 retainLimit = (some read, next)) : read.advanceSpan = none := by
  have disabled : read.pushEnabled = false := by
    unfold window at cut
    split at cut
    · cases cut
      rfl
    · cases cut
      simp [SubscriberCursor.window]
  simp [Window.advanceSpan, disabled]

theorem window_positions (subscriber : S) (pushLimit retainLimit : Nat) (other : S) :
    (core.window subscriber pushLimit retainLimit).2.cursors[other]? = none ↔ core.cursors[other]? = none := by
  unfold window
  cases held : core.cursors[subscriber]? with
  | none =>
    dsimp only
    split <;> exact Iff.rfl
  | some cursor =>
    dsimp only
    rw [lookup_insert]
    split
    next same => simp [← same, held]
    next => exact Iff.rfl

theorem advance_positions {subscriber : S} {through seenFloor : Nat} {answer : Option Advance}
    (moved : core.advance subscriber through seenFloor = some (answer, next)) (other : S) :
    next.cursors[other]? = none ↔ core.cursors[other]? = none := by
  unfold advance at moved
  split at moved
  · cases moved
    exact Iff.rfl
  next cursor held =>
    split at moved
    · cases moved
    · cases moved
      dsimp only
      rw [lookup_insert]
      split
      next same => simp [← same, held]
      next => exact Iff.rfl

end Brenn.Queue.RingCore

namespace Brenn.Surface
open Brenn.Lib Brenn.Attach Brenn.Queue Std

variable {K : Type} [LinearOrder K]

namespace ChannelStore

variable (store : ChannelStore K)

/-- What the peer reported dropping and no window has handed over yet. -/
def waiting (reader : K) : Nat := (store.serverDrops[reader]?).getD 0

def passedOver (reader : K) (depths : SubscriptionDepths) : Nat :=
  match store.core.window reader depths.pushDepth depths.retainDepth with
  | (none, _) => 0
  | (some window, core) =>
    match window.advanceSpan with
    | none => 0
    | some (through, seenFloor) =>
      (((core.advance reader through seenFloor).bind Prod.fst).map Advance.dropped).getD 0

structure Serves (reader : K) (depths : SubscriptionDepths) (window : ServedWindow) (next : ChannelStore K) : Prop where
  dropped : window.dropped = (store.passedOver reader depths + store.waiting reader) % 2 ^ 64
  sampled : depths.pushDepth = 0 →
    window.dropped = store.waiting reader % 2 ^ 64 ∧ window.counted = store.waiting reader % 2 ^ 64
  handed : next.serverDrops = store.serverDrops.erase reader
  positions : ∀ other : K, next.core.cursors[other]? = none ↔ store.core.cursors[other]? = none

variable {store}

theorem serve_cases {reader : K} {depths : SubscriptionDepths} {answer : Option ServedWindow} {next : ChannelStore K}
    (served : store.serve reader depths = some (answer, next)) :
    (answer = none ∧ next = store ∧ 0 < depths.pushDepth ∧ store.core.cursors[reader]? = none) ∨
      ∃ window, answer = some window ∧ store.Serves reader depths window next := by
  have kept := store.core.window_positions reader depths.pushDepth depths.retainDepth
  unfold serve at served
  cases cut : store.core.window reader depths.pushDepth depths.retainDepth with
  | mk read core =>
    rw [cut] at served kept
    cases read with
    | none =>
      cases served
      exact .inl ⟨rfl, rfl, RingCore.unserved_of_window cut⟩
    | some window =>
      dsimp only at served
      cases span : window.advanceSpan with
      | none =>
        rw [span] at served
        cases served
        refine .inr ⟨_, rfl, ⟨?_, fun _ => ⟨?_, ?_⟩, rfl, kept⟩⟩
        · simp [passedOver, cut, span, waiting]
        · simp [waiting]
        · simp [waiting]
      | some bounds =>
        obtain ⟨through, seenFloor⟩ := bounds
        rw [span] at served
        obtain ⟨⟨advance, moved⟩, advanced, same⟩ := Option.map_eq_some_iff.mp served
        cases same
        refine .inr ⟨_, rfl, ⟨?_, fun zero => ?_, rfl, fun other => ?_⟩⟩
        · simp [passedOver, cut, span, advanced, waiting]
        · rw [zero] at cut
          cases (RingCore.window_zero_advanceSpan cut).symm.trans span
        · exact (RingCore.advance_positions advanced other).trans (kept other)

theorem mem_readers {reader : K} : reader ∈ store.readers ↔ store.core.cursors[reader]? ≠ none := by
  rw [readers, TreeMap.mem_keys, ← TreeMap.isSome_getElem?_iff_mem, Option.isSome_iff_ne_none]

theorem countServerDrops_core (n : Nat) : (store.countServerDrops n).core = store.core := by
  unfold countServerDrops
  split <;> rfl

theorem lookup_countServerDrops {n : Nat} (some : n ≠ 0) (reader : K) :
    (store.countServerDrops n).serverDrops[reader]? =
      if store.core.cursors[reader]? = none then store.serverDrops[reader]?
      else Option.some (min (store.waiting reader + n) (2 ^ 64 - 1)) := by
  have walked : ∀ (readers : List K) (drops : TreeMap K Nat), readers.Nodup →
      (readers.foldl (fun drops reader => drops.insert reader (min ((drops[reader]?).getD 0 + n) (2 ^ 64 - 1)))
        drops)[reader]? =
      if reader ∈ readers then Option.some (min ((drops[reader]?).getD 0 + n) (2 ^ 64 - 1)) else drops[reader]? := by
    intro readers
    induction readers with
    | nil => simp
    | cons first readers ih =>
      intro drops distinct
      obtain ⟨apart, rest⟩ := List.nodup_cons.mp distinct
      rw [List.foldl_cons, ih _ rest, lookup_insert]
      by_cases same : first = reader
      · subst same
        simp [apart]
      · simp [same, Ne.symm same]
  unfold countServerDrops
  rw [if_neg some]
  refine (walked store.readers store.serverDrops TreeMap.nodup_keys).trans ?_
  by_cases held : store.core.cursors[reader]? = none
  · rw [if_neg (by simp [mem_readers, held]), if_pos held]
  · rw [if_pos (mem_readers.mpr held), if_neg held]
    rfl

/-- Every reader takes the full count, unless it saturates. -/
theorem waiting_countServerDrops {n : Nat} {reader : K}
    (fits : store.core.cursors[reader]? ≠ none → store.waiting reader + n < 2 ^ 64) :
    (store.countServerDrops n).waiting reader =
      if store.core.cursors[reader]? = none then store.waiting reader else store.waiting reader + n := by
  by_cases zero : n = 0
  · subst zero
    exact (ite_self _).symm
  · rw [waiting, lookup_countServerDrops zero]
    split
    · rfl
    next held =>
      have below := fits held
      rw [Option.getD_some, Nat.min_eq_left (by omega)]

end ChannelStore

/-! ### A store and its readers' accounts -/

/-- What happened to one reader over the lifetime of one position. -/
structure Lifetime where
  /-- Lost by the cursor arithmetic of the serves. -/
  arithmetic : Nat
  counted : Nat
  reported : Nat
  deriving Repr, DecidableEq

def Lifetime.opened : Lifetime := ⟨0, 0, 0⟩

def Lifetime.count (lifetime : Lifetime) (n : Nat) : Lifetime := { lifetime with counted := lifetime.counted + n }

inductive StoreCall (K : Type) where
  | insert (envelope : MessageEnvelope)
  | appendMinted (envelope : MessageEnvelope)
  | attach (reader : K) (pushDepth : Nat)
  | detach (reader : K)
  | retune (depth : Nat)
  | serve (reader : K) (depths : SubscriptionDepths)
  | countServerDrops (n : Nat)
  | park (sender : String) (envelope : MessageEnvelope) (releaseAt : Nat)
  | releaseDue (now : Nat)

/-- A channel store with the account of each reader's latest position. -/
structure Accounts (K : Type) [LinearOrder K] where
  store : ChannelStore K
  books : K → Lifetime

namespace Accounts

def new (epoch depth : Nat) : Accounts K := ⟨.new epoch depth, fun _ => .opened⟩

def book (accounts : Accounts K) (store : ChannelStore K) (reader : K) (change : Lifetime → Lifetime) : Accounts K :=
  if accounts.store.core.cursors[reader]? = none then ⟨store, accounts.books⟩
  else ⟨store, Function.update accounts.books reader (change (accounts.books reader))⟩

/-- One call, with what it means for the accounts; `none` where the call panics. -/
def step (accounts : Accounts K) : StoreCall K → Option (Accounts K)
  | .insert envelope => some { accounts with store := (accounts.store.insert envelope).2 }
  | .appendMinted envelope =>
    (accounts.store.appendMinted envelope).map fun (_, store) => { accounts with store }
  | .attach reader pushDepth =>
    match accounts.store.core.attach reader pushDepth with
    | (.created, _) =>
      some ⟨accounts.store.attach reader pushDepth, Function.update accounts.books reader .opened⟩
    | (.existing, _) => some { accounts with store := accounts.store.attach reader pushDepth }
  | .detach reader => some { accounts with store := accounts.store.detach reader }
  | .retune depth => some { accounts with store := (accounts.store.retune depth).2 }
  | .serve reader depths =>
    match accounts.store.serve reader depths with
    | none => none
    | some (none, store) => some { accounts with store }
    | some (some window, store) =>
      some (accounts.book store reader fun lifetime =>
        { lifetime with
          arithmetic := lifetime.arithmetic + accounts.store.passedOver reader depths
          reported := lifetime.reported + window.dropped })
  | .countServerDrops n =>
    some ⟨accounts.store.countServerDrops n, fun reader =>
      if accounts.store.core.cursors[reader]? = none then accounts.books reader
      else (accounts.books reader).count n⟩
  | .park sender envelope releaseAt =>
    match accounts.store.park sender envelope releaseAt with
    | .error _ => some accounts
    | .ok (_, store) => some { accounts with store }
  | .releaseDue now => some { accounts with store := (accounts.store.releaseDue now).2 }

/-- No position is given up, by an attach at depth zero or a detach, while peer-reported drops wait
    for it, and neither what waits for a reader nor what a window reports leaves a `u64`. -/
def Orderly (accounts : Accounts K) : StoreCall K → Prop
  | .attach reader 0 | .detach reader => accounts.store.serverDrops[reader]? = none
  | .serve reader depths => accounts.store.passedOver reader depths + accounts.store.waiting reader < 2 ^ 64
  | .countServerDrops n => ∀ reader ∈ accounts.store.readers, accounts.store.waiting reader + n < 2 ^ 64
  | _ => True

instance (accounts : Accounts K) : (call : StoreCall K) → Decidable (accounts.Orderly call)
  | .attach _ 0 | .detach _ => inferInstanceAs (Decidable (_ = _))
  | .attach _ (_ + 1) => inferInstanceAs (Decidable True)
  | .serve _ _ => inferInstanceAs (Decidable (_ < _))
  | .countServerDrops _ => inferInstanceAs (Decidable (∀ _ ∈ _, _))
  | .insert _ | .appendMinted _ | .retune _ | .park _ _ _ | .releaseDue _ => inferInstanceAs (Decidable True)

/-- Peer-reported drops belong to readers that hold a position, and every account balances. -/
structure Square (accounts : Accounts K) : Prop where
  keyed : ∀ reader : K, accounts.store.serverDrops[reader]? ≠ none → accounts.store.core.cursors[reader]? ≠ none
  balanced : ∀ reader, (accounts.books reader).reported + accounts.store.waiting reader =
    (accounts.books reader).arithmetic + (accounts.books reader).counted

namespace Square

variable {accounts : Accounts K} {store : ChannelStore K}

theorem new (epoch depth : Nat) : (Accounts.new epoch depth : Accounts K).Square where
  keyed := by
    intro reader held
    have absent : (∅ : TreeMap K Nat)[reader]? ≠ none := held
    simp at absent
  balanced reader := by
    have nothing : ((∅ : TreeMap K Nat)[reader]?).getD 0 = 0 := by simp
    exact nothing

theorem waiting_eq_zero (square : accounts.Square) {reader : K}
    (absent : accounts.store.core.cursors[reader]? = none) : accounts.store.waiting reader = 0 := by
  have none : accounts.store.serverDrops[reader]? = Option.none := by
    by_contra held
    exact square.keyed reader held absent
  rw [ChannelStore.waiting, none]
  rfl

/-- A call that changes neither the readers nor what waits for them. -/
theorem congr (square : accounts.Square) (drops : store.serverDrops = accounts.store.serverDrops)
    (positions : ∀ reader : K, store.core.cursors[reader]? = none ↔ accounts.store.core.cursors[reader]? = none) :
    (⟨store, accounts.books⟩ : Accounts K).Square where
  keyed reader held := by
    rw [drops] at held
    exact fun absent => square.keyed reader held ((positions reader).mp absent)
  balanced reader := by
    have waiting : store.waiting reader = accounts.store.waiting reader := by rw [ChannelStore.waiting, drops]; rfl
    show _ + store.waiting reader = _
    rw [waiting]
    exact square.balanced reader

theorem waiting_erase {drops : TreeMap K Nat} {reader other : K} (handed : store.serverDrops = drops.erase reader) :
    store.waiting other = if reader = other then 0 else (drops[other]?).getD 0 := by
  rw [ChannelStore.waiting, handed, lookup_erase]
  split <;> rfl

/-- A call about one reader: its account is rewritten to balance with the `rest` that waits. -/
theorem rebook (square : accounts.Square) {reader : K} {lifetime : Lifetime} {rest : Nat}
    (keyed : ∀ other : K, store.serverDrops[other]? ≠ none → store.core.cursors[other]? ≠ none)
    (waits : ∀ other, store.waiting other = if reader = other then rest else accounts.store.waiting other)
    (balanced : lifetime.reported + rest = lifetime.arithmetic + lifetime.counted) :
    (⟨store, Function.update accounts.books reader lifetime⟩ : Accounts K).Square where
  keyed := keyed
  balanced other := by
    show (Function.update accounts.books reader lifetime other).reported + store.waiting other =
      (Function.update accounts.books reader lifetime other).arithmetic +
        (Function.update accounts.books reader lifetime other).counted
    rw [waits]
    by_cases same : reader = other
    · subst same
      rw [Function.update_self, if_pos rfl]
      exact balanced
    · rw [Function.update_of_ne (Ne.symm same), if_neg same]
      exact square.balanced other

theorem giveUp (square : accounts.Square) {reader : K} (nothing : accounts.store.serverDrops[reader]? = none)
    (drops : ∀ other : K, store.serverDrops[other]? = accounts.store.serverDrops[other]?)
    (erased : store.core.cursors = accounts.store.core.cursors.erase reader) :
    (⟨store, accounts.books⟩ : Accounts K).Square where
  keyed other held := by
    rw [drops] at held
    rw [erased, lookup_erase, if_neg]
    · exact square.keyed other held
    · rintro rfl
      exact held nothing
  balanced other := by
    have waiting : store.waiting other = accounts.store.waiting other := by
      rw [ChannelStore.waiting, drops]
      rfl
    rw [waiting]
    exact square.balanced other

theorem attach (square : accounts.Square) {reader : K} {pushDepth : Nat} {next : Accounts K}
    (orderly : accounts.Orderly (.attach reader pushDepth))
    (stepped : accounts.step (.attach reader pushDepth) = some next) : next.Square := by
  cases pushDepth with
  | zero =>
    cases stepped
    exact square.giveUp orderly (fun _ => rfl) rfl
  | succ depth =>
    cases found : accounts.store.core.cursors[reader]? with
    | some cursor =>
      have retuned : accounts.store.core.attach reader (depth + 1) = (.existing, { accounts.store.core with
          cursors := accounts.store.core.cursors.insert reader (cursor.setPushDepth (depth + 1)) }) := by
        simp [RingCore.attach, found]
      simp only [Accounts.step, ChannelStore.attach, retuned] at stepped
      cases stepped
      refine square.congr rfl fun other => ?_
      dsimp only
      rw [lookup_insert]
      split
      next same => simp [← same, found]
      next => exact Iff.rfl
    | none =>
      have created : accounts.store.core.attach reader (depth + 1) = (.created, { accounts.store.core with
          cursors := accounts.store.core.cursors.insert reader (.primed accounts.store.core.ring (depth + 1)) }) := by
        simp [RingCore.attach, found]
      simp only [Accounts.step, ChannelStore.attach, created] at stepped
      cases stepped
      -- a position opens a new account, and nothing waits for it
      have nothing := square.waiting_eq_zero found
      have empty : Lifetime.opened.reported + 0 = Lifetime.opened.arithmetic + Lifetime.opened.counted := rfl
      refine square.rebook (fun other held => ?_) (fun other => ?_) empty
      · dsimp only
        rw [lookup_insert]
        split
        · simp
        · exact square.keyed other held
      · show accounts.store.waiting other = _
        split
        next same => rw [← same, nothing]
        next => rfl

theorem detach (square : accounts.Square) {reader : K} {next : Accounts K}
    (orderly : accounts.Orderly (.detach reader)) (stepped : accounts.step (.detach reader) = some next) :
    next.Square := by
  cases stepped
  refine square.giveUp orderly (fun other => ?_) rfl
  show (accounts.store.serverDrops.erase reader)[other]? = _
  rw [lookup_erase]
  split
  next same => rw [← same, show accounts.store.serverDrops[reader]? = none from orderly]
  next => rfl

theorem serve (square : accounts.Square) {reader : K} {depths : SubscriptionDepths} {next : Accounts K}
    (orderly : accounts.Orderly (.serve reader depths))
    (stepped : accounts.step (.serve reader depths) = some next) : next.Square := by
  unfold Accounts.step at stepped
  dsimp only at stepped
  cases served : accounts.store.serve reader depths with
  | none => simp [served] at stepped
  | some outcome =>
    obtain ⟨answer, store⟩ := outcome
    rw [served] at stepped
    rcases ChannelStore.serve_cases served with ⟨rfl, rfl, _⟩ | ⟨window, rfl, serves⟩
    · cases stepped
      exact square
    cases stepped
    have fits : accounts.store.passedOver reader depths + accounts.store.waiting reader < 2 ^ 64 := orderly
    have balanced := square.balanced reader
    have dropped := serves.dropped
    rw [Nat.mod_eq_of_lt fits] at dropped
    have keyed : ∀ other : K, store.serverDrops[other]? ≠ none → store.core.cursors[other]? ≠ none := by
      intro other held absent
      rw [serves.handed, lookup_erase] at held
      split at held
      · exact held rfl
      · exact square.keyed other held ((serves.positions other).mp absent)
    have waits : ∀ other, store.waiting other = if reader = other then 0 else accounts.store.waiting other :=
      fun other => waiting_erase serves.handed
    unfold Accounts.book
    split
    next absent =>
      -- without a position nothing is booked, which is writing what stands there
      rw [square.waiting_eq_zero absent] at balanced
      have rewritten := square.rebook keyed waits balanced
      rwa [Function.update_eq_self] at rewritten
    next =>
      refine square.rebook keyed waits ?_
      dsimp only
      omega

theorem countServerDrops (square : accounts.Square) {n : Nat} {next : Accounts K}
    (orderly : accounts.Orderly (.countServerDrops n))
    (stepped : accounts.step (.countServerDrops n) = some next) : next.Square := by
  cases stepped
  refine ⟨fun reader held => ?_, fun reader => ?_⟩
  · rw [ChannelStore.countServerDrops_core]
    by_cases zero : n = 0
    · subst zero
      exact square.keyed reader held
    · rw [ChannelStore.lookup_countServerDrops zero] at held
      split at held
      · exact square.keyed reader held
      next present => exact present
  · have balanced := square.balanced reader
    dsimp only
    by_cases absent : accounts.store.core.cursors[reader]? = none
    · rw [ChannelStore.waiting_countServerDrops (fun held => absurd absent held), if_pos absent, if_pos absent]
      exact balanced
    · have fits := fun held => orderly reader (ChannelStore.mem_readers.mpr held)
      rw [ChannelStore.waiting_countServerDrops fits, if_neg absent, if_neg absent]
      dsimp only [Lifetime.count]
      omega

/-- One orderly call keeps the drops with the positions and the accounts balanced. -/
theorem step (square : accounts.Square) {call : StoreCall K} {next : Accounts K} (orderly : accounts.Orderly call)
    (stepped : accounts.step call = some next) : next.Square := by
  cases call with
  | insert envelope =>
    cases stepped
    unfold ChannelStore.insert
    split
    · exact square
    · exact square.congr rfl fun reader => by rw [RingCore.append_cursors]
  | appendMinted envelope =>
    obtain ⟨⟨overflow, store⟩, minted, rfl⟩ := Option.map_eq_some_iff.mp stepped
    unfold ChannelStore.appendMinted at minted
    split at minted
    · cases minted
    · obtain rfl := congrArg Prod.snd (Option.some.inj minted)
      exact square.congr rfl fun reader => by
        show (accounts.store.core.append envelope).2.cursors[reader]? = none ↔ _
        rw [RingCore.append_cursors]
  | attach reader pushDepth => exact square.attach orderly stepped
  | detach reader => exact square.detach orderly stepped
  | retune depth =>
    cases stepped
    exact square.congr rfl fun reader => Iff.rfl
  | serve reader depths => exact square.serve orderly stepped
  | countServerDrops n => exact square.countServerDrops orderly stepped
  | park sender envelope releaseAt =>
    unfold Accounts.step at stepped
    dsimp only at stepped
    split at stepped
    · cases stepped
      exact square
    next parked =>
      cases stepped
      unfold ChannelStore.park at parked
      split at parked
      · cases parked
      next parking =>
        cases parked
        exact square.congr rfl fun reader => by rw [RingCore.park_cursors parking]
  | releaseDue now =>
    cases stepped
    exact square.congr rfl fun reader => by
      show (accounts.store.core.releaseDue now).2.cursors[reader]? = none ↔ _
      rw [RingCore.releaseDue_cursors]

end Square

end Accounts

theorem ChannelStore.serve_sampled {store : ChannelStore K} {reader : K} {depths : SubscriptionDepths}
    (zero : depths.pushDepth = 0) (absent : store.core.cursors[reader]? = none) :
    ∃ window next, store.serve reader depths = some (some window, next) := by
  have context : store.core.window reader depths.pushDepth depths.retainDepth =
      (some { entries := store.core.ring.tail depths.retainDepth
              newFrom := (store.core.ring.tail depths.retainDepth).length
              pushEnabled := false }, store.core) := by
    simp [RingCore.window, absent, zero]
  simp only [ChannelStore.serve, context, Window.advanceSpan, Bool.not_false, if_true, Option.map_some]
  exact ⟨_, _, rfl⟩

/-- Peer-reported drops belong to readers that hold a position, as long as no position they wait for
    is given up and no count leaves a `u64`. A sampled reader is then served without any. What a
    position's serves reported is what its cursor passed over and what was counted while it was
    held: exactly so once the position is gone and after each serve, and otherwise but for what
    the next serve will report. -/
theorem peer_drops_follow_positions {epoch depth : Nat} {calls : List (StoreCall K)} {accounts : Accounts K}
    (ran : run Accounts.step (.new epoch depth) calls = some accounts)
    (orderly : Along Accounts.step Accounts.Orderly (.new epoch depth) calls) :
    (∀ reader : K, accounts.store.serverDrops[reader]? ≠ none → accounts.store.core.cursors[reader]? ≠ none) ∧
    (∀ (reader : K) (depths : SubscriptionDepths), depths.pushDepth = 0 →
      accounts.store.core.cursors[reader]? = none →
      ∃ window next, accounts.store.serve reader depths = some (some window, next) ∧
        window.dropped = 0 ∧ window.counted = 0) ∧
    (∀ reader : K, accounts.store.core.cursors[reader]? = none →
      (accounts.books reader).reported = (accounts.books reader).arithmetic + (accounts.books reader).counted) ∧
    (∀ reader : K, (accounts.books reader).reported + accounts.store.waiting reader =
      (accounts.books reader).arithmetic + (accounts.books reader).counted) ∧
    (∀ (reader : K) (depths : SubscriptionDepths) (window : ServedWindow) (next : ChannelStore K),
      accounts.store.serve reader depths = some (some window, next) → next.waiting reader = 0) := by
  have kept : ∀ (accounts : Accounts K) call next, accounts.Square → accounts.Orderly call →
      accounts.step call = some next → next.Square := fun _ _ _ square orderly stepped => square.step orderly stepped
  have square := run_preserves kept (.new epoch depth) orderly ran
  refine ⟨square.keyed, ?_, ?_, square.balanced, ?_⟩
  · intro reader depths zero absent
    obtain ⟨window, next, served⟩ := ChannelStore.serve_sampled zero absent
    refine ⟨window, next, served, ?_⟩
    rcases ChannelStore.serve_cases served with ⟨missing, _⟩ | ⟨cut, same, serves⟩
    · cases missing
    · obtain rfl := Option.some.inj same
      have sampled := serves.sampled zero
      rwa [square.waiting_eq_zero absent] at sampled
  · intro reader absent
    have balanced := square.balanced reader
    rwa [square.waiting_eq_zero absent] at balanced
  · intro reader depths window next served
    rcases ChannelStore.serve_cases served with ⟨missing, _⟩ | ⟨cut, _, serves⟩
    · cases missing
    · rw [Accounts.Square.waiting_erase serves.handed, if_pos rfl]

/-- Two positions, a loss upstream of both, a serve and an orderly demotion. -/
theorem drops_served_before_demotion :
    ∃ accounts : Accounts Nat,
      run Accounts.step (.new 1 4)
        [.attach 1 2, .attach 2 3, .countServerDrops 5, .serve 1 ⟨2, 2⟩, .attach 1 0] = some accounts ∧
      (accounts.books 1).counted = 5 ∧ accounts.store.waiting 2 = 5 ∧
      (accounts.books 1).reported = (accounts.books 1).arithmetic + (accounts.books 1).counted := by
  obtain ⟨accounts, ran, facts⟩ : ∃ accounts : Accounts Nat,
      run Accounts.step (.new 1 4)
        [.attach 1 2, .attach 2 3, .countServerDrops 5, .serve 1 ⟨2, 2⟩, .attach 1 0] = some accounts ∧
      decide ((accounts.books 1).counted = 5 ∧ accounts.store.waiting 2 = 5 ∧
        accounts.store.core.cursors[1]? = none) = true :=
    Option.map_eq_some_iff.mp (by decide +kernel)
  obtain ⟨counted, waiting, gone⟩ := of_decide_eq_true facts
  exact ⟨accounts, ran, counted, waiting, (peer_drops_follow_positions ran (by decide +kernel)).2.2.1 1 gone⟩

/-- A demotion while a loss waits: the reader holds no position any more, its count stays behind,
    and its next window, cut at depth zero, reports the loss. A detach in its place drops the loss,
    which no window of the position reported. A reader that keeps its position and is served at
    depth zero is told of the loss as well. -/
theorem demotion_leaves_drops_behind :
    (∃ accounts : Accounts Nat,
      run Accounts.step (.new 1 4) [.attach 1 2, .countServerDrops 5, .attach 1 0] = some accounts ∧
      accounts.store.serverDrops[1]? = some 5 ∧ accounts.store.core.cursors[1]? = none ∧
      (accounts.store.serve 1 ⟨0, 2⟩).map Prod.fst = some (some ⟨[], 0, 5, 5⟩)) ∧
    (∃ accounts : Accounts Nat,
      run Accounts.step (.new 1 4) [.attach 1 2, .countServerDrops 5, .detach 1] = some accounts ∧
      accounts.books 1 = ⟨0, 5, 0⟩) ∧
    ∃ accounts : Accounts Nat,
      run Accounts.step (.new 1 4) [.attach 1 2, .countServerDrops 5] = some accounts ∧
      (accounts.store.serve 1 ⟨0, 2⟩).map Prod.fst = some (some ⟨[], 0, 5, 5⟩) := by
  refine ⟨?_, Option.map_eq_some_iff.mp (by decide +kernel), ?_⟩
  · obtain ⟨accounts, ran, facts⟩ : ∃ accounts : Accounts Nat,
        run Accounts.step (.new 1 4) [.attach 1 2, .countServerDrops 5, .attach 1 0] = some accounts ∧
        decide (accounts.store.serverDrops[1]? = some 5 ∧ accounts.store.core.cursors[1]? = none ∧
          (accounts.store.serve 1 ⟨0, 2⟩).map Prod.fst = some (some ⟨[], 0, 5, 5⟩)) = true :=
      Option.map_eq_some_iff.mp (by decide +kernel)
    exact ⟨accounts, ran, of_decide_eq_true facts⟩
  · obtain ⟨accounts, ran, facts⟩ : ∃ accounts : Accounts Nat,
        run Accounts.step (.new 1 4) [.attach 1 2, .countServerDrops 5] = some accounts ∧
        decide ((accounts.store.serve 1 ⟨0, 2⟩).map Prod.fst = some (some ⟨[], 0, 5, 5⟩)) = true :=
      Option.map_eq_some_iff.mp (by decide +kernel)
    exact ⟨accounts, ran, of_decide_eq_true facts⟩

end Brenn.Surface
