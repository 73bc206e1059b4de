import Brenn.Attach.Dialogue

/-!
Where one channel stands.

The two sides agree on a channel up to the frames still on the links. `Standing`
lists every way they can differ, and each call and turn moves a channel from one to another.
-/

namespace Brenn.Attach
open Brenn.Lib Brenn.Queue Brenn.Store Std

universe u v w

variable {C : Type u} {M : Type v} {Ep : Type w}

/-! ### Notes -/

/-- Two rows in a row: the second is next, or says how many it skips. -/
def Note.Covers : Note → Note → Prop
  | .row p _, .row q dropped => p < q ∧ (q = p + 1 ∨ dropped = q - p - 1)
  | _, _ => True

def Reaches (notes : List Note) (position : Nat) : Prop :=
  ∀ p dropped, notes.getLast? = some (.row p dropped) → position = p

/-! ### One channel of a dialogue -/

structure Span (Ep : Type w) where
  facts : SubscriptionFacts
  seq : Nat
  pos : Resume Ep

structure Thread (C : Type u) (M : Type v) (Ep : Type w) where
  entry : Option (ChannelSubscription (Cursor C Ep))
  span : Option (Span Ep)
  up : List (SubscriptionFrame C (Cursor C Ep))
  down : List (ServerFrame C M Ep)
  noted : List Note

def rowsOf (frames : List (ServerFrame C M Ep)) : List (DeliverRow (Retained M) (Cursor C Ep)) :=
  frames.flatMap fun
    | .deliver _ rows => rows
    | .subscribeResult _ _ _ _ => []

def Own (channel : C) (cursor : Cursor C Ep) : Prop := ∃ state, cursor.parsed = .ok state ∧ state.channel = channel

def At (position : Nat) (cursor : Cursor C Ep) : Prop := ∃ state, cursor.parsed = .ok state ∧ state.resume.seq = position

/-- A well-formed pass: some rows, a loss on the first alone, each with the cursor of its position. -/
def IsPass (channel : C) (frame : ServerFrame C M Ep) : Prop :=
  ∃ rows, frame = .deliver channel rows ∧ rows ≠ [] ∧ (∀ row ∈ rows.tail, row.dropped = 0) ∧
    ∀ row ∈ rows, Own channel row.cursor ∧ At row.envelope.seq row.cursor

/-- A statement whose losses the server reports and whose position the client presents again. -/
def Promised (profile : Profile C) (channel : C) (statement : SubscriptionDepths × ResumePolicy) : Prop :=
  statement.2 = .resume ∧ ∃ bound ∈ profile.subscribable channel, 1 ≤ min statement.1.pushDepth bound.pushDepth

variable (profile : Profile C) (channel : C)

/-- What holds of an entry wherever its channel stands. -/
structure Kept (entry : ChannelSubscription (Cursor C Ep)) (noted : List Note) : Prop where
  admissible : Dialogue.Admissible profile channel entry.depths
  token : ∀ cursor ∈ entry.token, Own channel cursor
  unheld : entry.refcount = 0 → noted = []
  latest : entry.resumePolicy = .resume → ∀ p dropped, noted.getLast? = some (.row p dropped) →
    ∃ cursor ∈ entry.token, At p cursor
  covered : Promised profile channel (entry.depths, entry.resumePolicy) → noted.IsChain Note.Covers

/-- Passes of a span the client is not on; only a channel that was open can have any. -/
structure Stragglers (entry : ChannelSubscription (Cursor C Ep)) (frames : List (ServerFrame C M Ep)) : Prop where
  passes : ∀ frame ∈ frames, IsPass channel frame
  known : frames ≠ [] → entry.hasBeenActive = true

/-- A `Subscribe` on its way, and the statement it was sent under. -/
structure Asking (entry : ChannelSubscription (Cursor C Ep)) (noted : List Note) (depths : SubscriptionDepths)
    (resume : Option (Cursor C Ep)) : Prop where
  pending : entry.wire = .pending
  spanHw : entry.spanHw = none
  admissible : Dialogue.Admissible profile channel depths
  own : ∀ cursor ∈ resume, Own channel cursor
  stated : ∃ policy, entry.stated = some (depths, policy) ∧
    (Promised profile channel (depths, policy) → noted.IsChain Note.Covers) ∧
    (policy = .resume → ∀ p dropped, noted.getLast? = some (.row p dropped) → ∃ cursor ∈ resume, At p cursor)

/-- An open span, with the frames the client has still to take in after `seq`, and what it will note. -/
structure Flowing (entry : ChannelSubscription (Cursor C Ep)) (span : Span Ep) (seq : Nat)
    (frames : List (ServerFrame C M Ep)) (notes : List Note) : Prop where
  passes : ∀ frame ∈ frames, IsPass channel frame
  numbered : Numbered DeliverRow.seq (seq + 1) (rowsOf frames)
  reached : seq + (rowsOf frames).length = span.seq
  stated : ∃ statement, entry.stated = some statement ∧
    (∃ bound ∈ profile.subscribable channel, span.facts =
      ⟨min statement.1.pushDepth bound.pushDepth, min statement.1.retainDepth bound.retainDepth⟩) ∧
    (Promised profile channel statement →
      notes.IsChain Note.Covers ∧ Reaches notes span.pos.seq)

inductive Standing : Thread C M Ep → Prop where
  | absent : Standing ⟨none, none, [], [], []⟩
  /-- Nothing is open and nothing asked. -/
  | idle {entry : ChannelSubscription (Cursor C Ep)} {down : List (ServerFrame C M Ep)} {noted : List Note}
      (kept : Kept profile channel entry noted) (wire : entry.wire = .unsubscribed)
      (left : Stragglers channel entry down) : Standing ⟨some entry, none, [], down, noted⟩
  | closing {entry : ChannelSubscription (Cursor C Ep)} {span : Span Ep} {down : List (ServerFrame C M Ep)}
      {noted : List Note} (kept : Kept profile channel entry noted) (wire : entry.wire = .unsubscribed)
      (known : entry.hasBeenActive = true) (left : Stragglers channel entry down) :
      Standing ⟨some entry, some span, [.unsubscribe channel], down, noted⟩
  | asked {entry : ChannelSubscription (Cursor C Ep)} {depths : SubscriptionDepths} {resume : Option (Cursor C Ep)}
      {down : List (ServerFrame C M Ep)} {noted : List Note} (kept : Kept profile channel entry noted)
      (asking : Asking profile channel entry noted depths resume) (left : Stragglers channel entry down) :
      Standing ⟨some entry, none, [.subscribe channel depths resume], down, noted⟩
  /-- A close and a subscribe are on their way. -/
  | reasked {entry : ChannelSubscription (Cursor C Ep)} {span : Span Ep} {depths : SubscriptionDepths}
      {resume : Option (Cursor C Ep)} {down : List (ServerFrame C M Ep)} {noted : List Note}
      (kept : Kept profile channel entry noted) (known : entry.hasBeenActive = true)
      (asking : Asking profile channel entry noted depths resume) (left : Stragglers channel entry down) :
      Standing ⟨some entry, some span, [.unsubscribe channel, .subscribe channel depths resume], down, noted⟩
  /-- The acknowledgement is on its way, and what was sent after it. -/
  | opened {entry : ChannelSubscription (Cursor C Ep)} {span : Span Ep} {before after : List (ServerFrame C M Ep)}
      {count : Nat} {gap : Option GapInfo} {noted : List Note} (kept : Kept profile channel entry noted)
      (pending : entry.wire = .pending) (spanHw : entry.spanHw = none) (left : Stragglers channel entry before)
      (flowing : Flowing profile channel entry span 0 after (noted ++ (gapNote gap ++ notesOf (rowsOf after)))) :
      Standing ⟨some entry, some span, [], before ++ .subscribeResult channel .ok count gap :: after, noted⟩
  | refused {entry : ChannelSubscription (Cursor C Ep)} {down : List (ServerFrame C M Ep)} {count : Nat}
      {gap : Option GapInfo} {noted : List Note} (kept : Kept profile channel entry noted)
      (pending : entry.wire = .pending) (left : Stragglers channel entry down) :
      Standing ⟨some entry, none, [], down ++ [.subscribeResult channel .unavailable count gap], noted⟩
  | active {entry : ChannelSubscription (Cursor C Ep)} {span : Span Ep} {down : List (ServerFrame C M Ep)}
      {noted : List Note} (kept : Kept profile channel entry noted) (wire : entry.wire = .active)
      (held : 0 < entry.refcount) (known : entry.hasBeenActive = true)
      (stated : entry.stated = some (entry.depths, entry.resumePolicy))
      (flowing : Flowing profile channel entry span (entry.spanHw.getD 0) down (noted ++ notesOf (rowsOf down))) :
      Standing ⟨some entry, some span, [], down, noted⟩

/-! ### The embedder's calls -/

section Calls

variable {profile channel} {entry entry' : ChannelSubscription (Cursor C Ep)} {span : Option (Span Ep)}
  {up : List (SubscriptionFrame C (Cursor C Ep))} {down : List (ServerFrame C M Ep)} {noted : List Note}
  {depths : SubscriptionDepths} {policy : ResumePolicy}

theorem Kept.fresh (admissible : Dialogue.Admissible profile channel depths) :
    Kept profile channel (.fresh depths policy : ChannelSubscription (Cursor C Ep)) [] :=
  ⟨admissible, by simp [ChannelSubscription.fresh], fun _ => rfl, by simp, fun _ => .nil⟩

theorem Standing.kept (standing : Standing profile channel ⟨some entry, span, up, down, noted⟩) :
    Kept profile channel entry noted := by
  cases standing <;> assumption

/-- What is open on the client's side has holders, and is open on the server's. -/
theorem Standing.held_of_active (standing : Standing profile channel ⟨some entry, span, up, down, noted⟩)
    (live : entry.wire = .active) : 0 < entry.refcount ∧ span.isSome := by
  cases standing with
  | active _ _ held _ _ _ => exact ⟨held, rfl⟩
  | idle _ free _ | closing _ free _ _ => exact absurd (free.symm.trans live) (by simp)
  | asked _ asking _ | reasked _ _ asking _ => exact absurd (asking.pending.symm.trans live) (by simp)
  | opened _ pending _ _ _ | refused _ pending _ => exact absurd (pending.symm.trans live) (by simp)

theorem Standing.unknown (standing : Standing profile channel ⟨none, span, up, down, noted⟩) :
    span = none ∧ noted = [] := by
  cases standing
  exact ⟨rfl, rfl⟩

theorem Standing.appear (standing : Standing profile channel ⟨none, span, up, down, noted⟩)
    (kept : Kept profile channel entry []) (free : entry.wire = .unsubscribed) :
    Standing profile channel ⟨some entry, span, up, down, noted⟩ := by
  cases standing
  exact .idle kept free ⟨by simp, by simp⟩

/-- One more reference, stated as the channel stands or afresh. -/
theorem Kept.hold (kept : Kept profile channel entry noted)
    (admissible : Dialogue.Admissible profile channel depths) :
    Kept profile channel (entry.restate depths policy).hold noted := by
  have counted : (entry.restate depths policy).hold.refcount ≠ 0 := by
    simp [ChannelSubscription.hold]
  by_cases free : entry.refcount = 0
  · obtain rfl := kept.unheld free
    refine ⟨?_, ?_, fun none => absurd none counted, by simp, fun _ => .nil⟩
    · simpa [ChannelSubscription.hold, ChannelSubscription.restate, free] using admissible
    · simpa [ChannelSubscription.hold, ChannelSubscription.restate, free] using kept.token
  · have stands : entry.restate depths policy = entry := by simp [ChannelSubscription.restate, free]
    rw [stands] at counted ⊢
    exact ⟨kept.admissible, kept.token, fun none => absurd none counted, kept.latest, kept.covered⟩

/-- Only the count and the statement of an entry change, the statement of an active one not. -/
theorem Standing.reentry (standing : Standing profile channel ⟨some entry, span, up, down, noted⟩)
    (kept : Kept profile channel entry' noted) (wire : entry'.wire = entry.wire)
    (known : entry'.hasBeenActive = entry.hasBeenActive) (spanHw : entry'.spanHw = entry.spanHw)
    (stated : entry'.stated = entry.stated)
    (active : entry.wire = .active → 0 < entry'.refcount ∧ entry'.depths = entry.depths ∧
      entry'.resumePolicy = entry.resumePolicy) :
    Standing profile channel ⟨some entry', span, up, down, noted⟩ := by
  have still : ∀ {frames : List (ServerFrame C M Ep)}, Stragglers channel entry frames →
      Stragglers channel entry' frames := fun left => ⟨left.passes, fun some => known ▸ left.known some⟩
  have asks : ∀ {depths resume}, Asking profile channel entry noted depths resume →
      Asking profile channel entry' noted depths resume := fun asking =>
    ⟨wire ▸ asking.pending, spanHw ▸ asking.spanHw, asking.admissible, asking.own, stated ▸ asking.stated⟩
  have flows : ∀ {span seq notes} {frames : List (ServerFrame C M Ep)},
      Flowing profile channel entry span seq frames notes → Flowing profile channel entry' span seq frames notes :=
    fun flowing => ⟨flowing.passes, flowing.numbered, flowing.reached, stated ▸ flowing.stated⟩
  cases standing with
  | idle _ free left => exact .idle kept (wire ▸ free) (still left)
  | closing _ free was left => exact .closing kept (wire ▸ free) (known ▸ was) (still left)
  | asked _ asking left => exact .asked kept (asks asking) (still left)
  | reasked _ was asking left => exact .reasked kept (known ▸ was) (asks asking) (still left)
  | opened _ pending none left flowing => exact .opened kept (wire ▸ pending) (spanHw ▸ none) (still left) (flows flowing)
  | refused _ pending left => exact .refused kept (wire ▸ pending) (still left)
  | active _ live held was current flowing =>
    obtain ⟨more, sameDepths, samePolicy⟩ := active live
    refine .active kept (wire ▸ live) more (known ▸ was) ?_ (spanHw ▸ flows flowing)
    rw [stated, current, sameDepths, samePolicy]

theorem Standing.subscribe (standing : Standing profile channel ⟨some entry, span, up, down, noted⟩)
    (free : entry.wire = .unsubscribed) :
    Standing profile channel
      ⟨some (entry.subscribeFrame channel).2, span, up ++ [(entry.subscribeFrame channel).1], down, noted⟩ := by
  have keeps : Kept profile channel entry noted →
      Kept profile channel (entry.subscribeFrame channel).2 noted := fun kept =>
    ⟨kept.admissible, kept.token, kept.unheld, kept.latest, kept.covered⟩
  have asking : Kept profile channel entry noted → Asking profile channel (entry.subscribeFrame channel).2 noted
      entry.depths entry.prepareSubscribe.1 := by
    intro kept
    refine ⟨rfl, rfl, kept.admissible, ?_, entry.resumePolicy, rfl, kept.covered, fun resumes => ?_⟩
    · intro cursor presented
      cases policy : entry.resumePolicy with
      | resume => exact kept.token cursor (by simpa [ChannelSubscription.prepareSubscribe, policy] using presented)
      | cursorless => simp [ChannelSubscription.prepareSubscribe, policy] at presented
    · have presented : entry.prepareSubscribe.1 = entry.token := by
        simp [ChannelSubscription.prepareSubscribe, resumes]
      rw [presented]
      exact kept.latest resumes
  cases standing with
  | idle kept _ left => exact .asked (keeps kept) (asking kept) ⟨left.passes, left.known⟩
  | closing kept _ was left => exact .reasked (keeps kept) was (asking kept) ⟨left.passes, left.known⟩
  | asked _ asks _ => exact absurd (free.symm.trans asks.pending) (by simp)
  | reasked _ _ asks _ => exact absurd (free.symm.trans asks.pending) (by simp)
  | opened _ pending _ _ _ => exact absurd (free.symm.trans pending) (by simp)
  | refused _ pending _ => exact absurd (free.symm.trans pending) (by simp)
  | active _ live _ _ _ _ => exact absurd (free.symm.trans live) (by simp)

/-- What the last holder leaves behind: no cursor, and nothing noted. -/
def ChannelSubscription.vacated (entry : ChannelSubscription (Cursor C Ep)) : ChannelSubscription (Cursor C Ep) :=
  { entry with refcount := 0, token := none }

theorem Kept.vacate (kept : Kept profile channel entry noted) : Kept profile channel entry.vacated [] :=
  ⟨kept.admissible, by simp [ChannelSubscription.vacated], fun _ => rfl, by simp, fun _ => .nil⟩

theorem Flowing.restart {span : Span Ep} {seq : Nat} {frames : List (ServerFrame C M Ep)} {notes : List Note}
    (flowing : Flowing profile channel entry span seq frames (noted ++ notes)) :
    Flowing profile channel entry.vacated span seq frames ([] ++ notes) := by
  obtain ⟨passes, numbered, reached, statement, stated, facts, promise⟩ := flowing
  refine ⟨passes, numbered, reached, statement, stated, facts, fun promised => ?_⟩
  obtain ⟨chain, reaches⟩ := promise promised
  refine ⟨(List.isChain_append.mp chain).2.1, fun p dropped last => reaches p dropped ?_⟩
  rw [List.nil_append] at last
  rw [List.getLast?_append, last, Option.some_or]

/-- The last holder goes, while nothing is open or the answer is still to come. -/
theorem Standing.leave (standing : Standing profile channel ⟨some entry, span, up, down, noted⟩)
    (waiting : entry.wire ≠ .active) : Standing profile channel ⟨some entry.vacated, span, up, down, []⟩ := by
  have asks : ∀ {depths resume}, Asking profile channel entry noted depths resume →
      Asking profile channel entry.vacated [] depths resume := by
    intro depths resume asking
    obtain ⟨policy, stated, -⟩ := asking.stated
    exact ⟨asking.pending, asking.spanHw, asking.admissible, asking.own, policy, stated, fun _ => .nil, by simp⟩
  cases standing with
  | idle kept free left => exact .idle kept.vacate free ⟨left.passes, left.known⟩
  | closing kept free was left => exact .closing kept.vacate free was ⟨left.passes, left.known⟩
  | asked kept asking left => exact .asked kept.vacate (asks asking) ⟨left.passes, left.known⟩
  | reasked kept was asking left => exact .reasked kept.vacate was (asks asking) ⟨left.passes, left.known⟩
  | opened kept pending none left flowing =>
    exact .opened kept.vacate pending none ⟨left.passes, left.known⟩ flowing.restart
  | refused kept pending left => exact .refused kept.vacate pending ⟨left.passes, left.known⟩
  | active _ live _ _ _ _ => exact absurd live waiting

/-- The last holder of an open channel goes, and the close is sent. -/
theorem Standing.close (standing : Standing profile channel ⟨some entry, span, up, down, noted⟩)
    (live : entry.wire = .active) :
    Standing profile channel
      ⟨some { entry.vacated with wire := .unsubscribed }, span, up ++ [.unsubscribe channel], down, []⟩ := by
  cases standing with
  | active kept _ _ was _ flowing =>
    refine .closing ?_ rfl was ⟨flowing.passes, fun _ => was⟩
    have left := kept.vacate
    exact ⟨left.admissible, left.token, left.unheld, left.latest, left.covered⟩
  | idle _ free _ => exact absurd (free.symm.trans live) (by simp)
  | closing _ free _ _ => exact absurd (free.symm.trans live) (by simp)
  | asked _ asking _ => exact absurd (asking.pending.symm.trans live) (by simp)
  | reasked _ _ asking _ => exact absurd (asking.pending.symm.trans live) (by simp)
  | opened _ pending _ _ _ => exact absurd (pending.symm.trans live) (by simp)
  | refused _ pending _ => exact absurd (pending.symm.trans live) (by simp)

theorem Standing.forget (standing : Standing profile channel ⟨some entry, span, up, down, noted⟩)
    (spent : entry.isSpent = true) : Standing profile channel ⟨none, span, up, down, noted⟩ := by
  simp only [ChannelSubscription.isSpent, Bool.and_eq_true, decide_eq_true_eq, Bool.not_eq_true'] at spent
  obtain ⟨⟨unheld, free⟩, never⟩ := spent
  cases standing with
  | idle kept _ left =>
    obtain rfl := kept.unheld unheld
    by_cases empty : down = []
    · subst empty
      exact .absent
    · exact absurd (left.known empty) (by simp [never])
  | closing _ _ was _ => exact absurd was (by simp [never])
  | asked _ asking _ => exact absurd (free.symm.trans asking.pending) (by simp)
  | reasked _ _ asking _ => exact absurd (free.symm.trans asking.pending) (by simp)
  | opened _ pending _ _ _ => exact absurd (free.symm.trans pending) (by simp)
  | refused _ pending _ => exact absurd (free.symm.trans pending) (by simp)
  | active _ live _ _ _ _ => exact absurd (free.symm.trans live) (by simp)

theorem Standing.cut (standing : Standing profile channel ⟨some entry, span, up, down, noted⟩) :
    Standing profile channel (⟨some { entry with
      wire := .unsubscribed, spanHw := none, hasBeenActive := false, stragglerReported := false }, none, [], [], noted⟩ :
        Thread C M Ep) := by
  have kept := standing.kept
  exact .idle ⟨kept.admissible, kept.token, kept.unheld, kept.latest, kept.covered⟩ rfl ⟨by simp, by simp⟩

end Calls

/-! ### The server's turns -/

section Turns

variable {profile channel} {entry : Option (ChannelSubscription (Cursor C Ep))} {span : Option (Span Ep)}
  {up : List (SubscriptionFrame C (Cursor C Ep))} {down : List (ServerFrame C M Ep)} {noted : List Note}

theorem Standing.serveUnsubscribe
    (standing : Standing profile channel ⟨entry, span, .unsubscribe channel :: up, down, noted⟩) :
    span.isSome ∧ Standing profile channel ⟨entry, none, up, down, noted⟩ := by
  cases standing with
  | closing kept free _ left => exact ⟨rfl, .idle kept free left⟩
  | reasked kept _ asking left => exact ⟨rfl, .asked kept asking left⟩

/-- A subscribe finds the channel closed, and a statement and a cursor the server takes. -/
theorem Standing.serveSubscribe {depths : SubscriptionDepths} {resume : Option (Cursor C Ep)}
    (standing : Standing profile channel ⟨entry, span, .subscribe channel depths resume :: up, down, noted⟩) :
    span = none ∧ up = [] ∧ Dialogue.Admissible profile channel depths ∧ (∀ cursor ∈ resume, Own channel cursor) ∧
      ∀ count gap, Standing profile channel
        ⟨entry, none, [], down ++ [.subscribeResult channel .unavailable count gap], noted⟩ := by
  cases standing with
  | asked kept asking left =>
    exact ⟨rfl, rfl, asking.admissible, asking.own, fun _ _ => .refused kept asking.pending left⟩

structure Sent (channel : C) (span : Span Ep) (rows : List (DeliverRow (Retained M) (Cursor C Ep))) (span' : Span Ep) :
    Prop where
  pass : IsPass channel (.deliver channel rows)
  numbered : Numbered DeliverRow.seq (span.seq + 1) rows
  seq : span'.seq = span.seq + rows.length
  facts : span'.facts = span.facts
  covered : span.facts.pushEnabled = true → ∀ dropped,
    (.row span.pos.seq dropped :: notesOf rows).IsChain Note.Covers
  reaches : Reaches (notesOf rows) span'.pos.seq

@[simp] theorem rowsOf_append (frames more : List (ServerFrame C M Ep)) :
    rowsOf (frames ++ more) = rowsOf frames ++ rowsOf more := List.flatMap_append

@[simp] theorem rowsOf_deliver (rows : List (DeliverRow (Retained M) (Cursor C Ep))) (frames : List (ServerFrame C M Ep)) :
    rowsOf (.deliver channel rows :: frames) = rows ++ rowsOf frames := rfl

@[simp] theorem rowsOf_nil : rowsOf ([] : List (ServerFrame C M Ep)) = [] := rfl

@[simp] theorem notesOf_append (rows more : List (DeliverRow (Retained M) (Cursor C Ep))) :
    notesOf (rows ++ more) = notesOf rows ++ notesOf more := List.map_append

/-- The notes of a pass go on from a position that the notes before it reach. -/
theorem chain_notes {notes : List Note} {rows : List (DeliverRow (Retained M) (Cursor C Ep))} {position : Nat}
    (chain : notes.IsChain Note.Covers) (reaches : Reaches notes position)
    (covered : ∀ dropped, (.row position dropped :: notesOf rows).IsChain Note.Covers) :
    (notes ++ notesOf rows).IsChain Note.Covers := by
  refine List.isChain_append.mpr ⟨chain, (covered 0).tail, fun last here first next => ?_⟩
  cases last with
  | gap => trivial
  | row p dropped =>
    obtain rfl := reaches p dropped here
    obtain ⟨rest, split⟩ := List.head?_eq_some_iff.mp next
    have linked := covered dropped
    rw [split] at linked
    exact (List.isChain_cons_cons.mp linked).1

theorem Reaches.append {notes more : List Note} {position position' : Nat} (reaches : Reaches notes position)
    (next : Reaches more position') (same : more = [] → position' = position) : Reaches (notes ++ more) position' := by
  intro p dropped last
  by_cases empty : more = []
  · subst empty
    rw [List.append_nil] at last
    rw [same rfl]
    exact reaches p dropped last
  · rw [List.getLast?_append_of_ne_nil _ empty] at last
    exact next p dropped last

variable {rows : List (DeliverRow (Retained M) (Cursor C Ep))} {span₁ span₂ : Span Ep}

theorem IsPass.channel_eq {frame : ServerFrame C M Ep} (pass : IsPass channel frame) : frame.channel = channel := by
  obtain ⟨_, rfl, -⟩ := pass
  rfl

theorem IsPass.rows_ne_nil (pass : IsPass channel (.deliver channel rows : ServerFrame C M Ep)) : rows ≠ [] := by
  obtain ⟨_, same, nonempty, -⟩ := pass
  cases same
  exact nonempty

theorem Flowing.sent {entry : ChannelSubscription (Cursor C Ep)} {seq : Nat} {notes : List Note}
    (flowing : Flowing profile channel entry span₁ seq down notes) (sent : Sent channel span₁ rows span₂) :
    Flowing profile channel entry span₂ seq (down ++ [.deliver channel rows]) (notes ++ notesOf rows) := by
  obtain ⟨passes, numbered, reached, statement, stated, ⟨bound, granted, facts⟩, promise⟩ := flowing
  refine ⟨fun frame member => ?_, ?_, ?_, statement, stated, ⟨bound, granted, sent.facts.trans facts⟩,
    fun promised => ?_⟩
  · rcases List.mem_append.mp member with old | new
    · exact passes frame old
    · rw [List.mem_singleton.mp new]
      exact sent.pass
  · rw [rowsOf_append, rowsOf_deliver, rowsOf_nil, List.append_nil, numbered_append]
    refine ⟨numbered, ?_⟩
    rw [show seq + 1 + (rowsOf down).length = span₁.seq + 1 by omega]
    exact sent.numbered
  · rw [rowsOf_append, rowsOf_deliver, rowsOf_nil, List.append_nil, List.length_append, sent.seq]
    omega
  · obtain ⟨chain, reaches⟩ := promise promised
    have enabled : span₁.facts.pushEnabled = true := by
      obtain ⟨-, other, again, positive⟩ := promised
      obtain rfl := Option.some.inj (granted.symm.trans again)
      rw [facts]
      exact decide_eq_true positive
    refine ⟨chain_notes chain reaches (sent.covered enabled), reaches.append sent.reaches fun empty => ?_⟩
    exact absurd (List.map_eq_nil_iff.mp empty) sent.pass.rows_ne_nil

theorem Standing.send (standing : Standing profile channel ⟨entry, some span₁, up, down, noted⟩)
    (sent : Sent channel span₁ rows span₂) :
    Standing profile channel ⟨entry, some span₂, up, down ++ [.deliver channel rows], noted⟩ := by
  have strays : ∀ {entry : ChannelSubscription (Cursor C Ep)}, entry.hasBeenActive = true →
      Stragglers channel entry down → Stragglers channel entry (down ++ [.deliver channel rows]) := by
    intro entry was left
    refine ⟨fun frame member => ?_, fun _ => was⟩
    rcases List.mem_append.mp member with old | new
    · exact left.passes frame old
    · rw [List.mem_singleton.mp new]
      exact sent.pass
  cases standing with
  | closing kept free was left => exact .closing kept free was (strays was left)
  | reasked kept was asking left => exact .reasked kept was asking (strays was left)
  | @opened entry _ before after count gap _ kept pending none left flowing =>
    have flows := flowing.sent sent
    rw [List.append_assoc, List.append_assoc, ← notesOf_append] at flows
    rw [List.append_assoc, List.cons_append]
    refine .opened kept pending none left ?_
    simpa using flows
  | active kept live held was current flowing =>
    have flows := flowing.sent sent
    rw [List.append_assoc, ← notesOf_append] at flows
    refine .active kept live held was current ?_
    simpa using flows

/-- How a server opens a span: the frames that follow its answer, and where they leave the cursor of
    their last row. -/
structure Opens (profile : Profile C) (channel : C) (depths : SubscriptionDepths) (resume : Option (Cursor C Ep))
    (gap : Option GapInfo) (frames : List (ServerFrame C M Ep)) (span : Span Ep) : Prop where
  passes : ∀ frame ∈ frames, IsPass channel frame
  numbered : Numbered DeliverRow.seq 1 (rowsOf frames)
  reached : (rowsOf frames).length = span.seq
  facts : ∃ bound ∈ profile.subscribable channel,
    span.facts = ⟨min depths.pushDepth bound.pushDepth, min depths.retainDepth bound.retainDepth⟩
  covered : ∀ notes : List Note, notes.IsChain Note.Covers →
    (∀ p dropped, notes.getLast? = some (.row p dropped) → ∃ cursor ∈ resume, At p cursor) →
    (notes ++ (gapNote gap ++ notesOf (rowsOf frames))).IsChain Note.Covers ∧
      Reaches (notes ++ (gapNote gap ++ notesOf (rowsOf frames))) span.pos.seq

theorem Standing.serveOpened {depths : SubscriptionDepths} {resume : Option (Cursor C Ep)} {count : Nat}
    {gap : Option GapInfo} {frames : List (ServerFrame C M Ep)}
    (standing : Standing profile channel ⟨entry, span, .subscribe channel depths resume :: up, down, noted⟩)
    (opens : Opens profile channel depths resume gap frames span₁) :
    Standing profile channel
      ⟨entry, some span₁, [], down ++ .subscribeResult channel .ok count gap :: frames, noted⟩ := by
  cases standing with
  | asked kept asking left =>
    obtain ⟨policy, stated, covered, presented⟩ := asking.stated
    exact .opened kept asking.pending asking.spanHw left
      ⟨opens.passes, opens.numbered, by rw [Nat.zero_add, opens.reached], _, stated, opens.facts, fun promised =>
        opens.covered noted (covered promised) (presented promised.1)⟩

end Turns

/-! ### What the client takes in -/

section Intake

variable {profile channel} {entry : Option (ChannelSubscription (Cursor C Ep))} {span : Option (Span Ep)}
  {up : List (SubscriptionFrame C (Cursor C Ep))} {down : List (ServerFrame C M Ep)} {noted : List Note}
  {rows : List (DeliverRow (Retained M) (Cursor C Ep))}

/-- Consecutive seqs above the high water advance it to the last. -/
theorem spanAdvance_numbered {κ : Type w} (rows : List (DeliverRow (Retained M) κ)) (hw : Option Nat)
    (numbered : Numbered DeliverRow.seq (hw.getD 0 + 1) rows) (nonempty : rows ≠ []) :
    spanAdvance hw rows = .ok (some (hw.getD 0 + rows.length)) := by
  induction rows generalizing hw with
  | nil => exact absurd rfl nonempty
  | cons row rows ih =>
    obtain ⟨here, rest⟩ := numbered_cons.mp numbered
    have taken : spanAdvance hw (row :: rows) = spanAdvance (some row.seq) rows := by
      cases hw with
      | none => rfl
      | some seen =>
        rw [Option.getD_some] at here
        rw [spanAdvance, if_neg (by omega)]
    rw [taken]
    by_cases last : rows = []
    · subst last
      simp [spanAdvance, here]
    · rw [ih (some row.seq) (by simpa [here] using rest) last, Option.getD_some, List.length_cons, here]
      congr 2
      omega

theorem notesOf_last {p dropped : Nat} {head : DeliverRow (Retained M) (Cursor C Ep)}
    {rest : List (DeliverRow (Retained M) (Cursor C Ep))}
    (last : (notesOf (head :: rest)).getLast? = some (.row p dropped))
    (cursors : ∀ row ∈ head :: rest, At row.envelope.seq row.cursor) : At p (rest.getLast?.getD head).cursor := by
  have listed : (head :: rest).getLast? = some (rest.getLast?.getD head) := List.getLast?_cons
  rw [notesOf, List.getLast?_map, listed, Option.map_some, Option.some.injEq, Note.row.injEq] at last
  exact last.1 ▸ cursors _ (List.mem_of_getLast? listed)

theorem Standing.isPass (standing : Standing profile channel ⟨entry, span, up, down, noted⟩)
    (listed : .deliver channel rows ∈ down) : IsPass channel (.deliver channel rows : ServerFrame C M Ep) := by
  cases standing with
  | absent => cases listed
  | idle _ _ left | closing _ _ _ left | asked _ _ left | reasked _ _ _ left => exact left.passes _ listed
  | active _ _ _ _ _ flowing => exact flowing.passes _ listed
  | opened _ _ _ left flowing =>
    rcases List.mem_append.mp listed with old | new
    · exact left.passes _ old
    · rcases List.mem_cons.mp new with other | later
      · cases other
      · exact flowing.passes _ later
  | refused _ _ left =>
    rcases List.mem_append.mp listed with old | new
    · exact left.passes _ old
    · cases List.mem_singleton.mp new

/-- A pass of a span the client is not on is set aside. -/
theorem Standing.receiveStraggler {entry : ChannelSubscription (Cursor C Ep)}
    (standing : Standing profile channel ⟨some entry, span, up, .deliver channel rows :: down, noted⟩)
    (elsewhere : entry.wire ≠ .active) :
    entry.hasBeenActive = true ∧
      Standing profile channel ⟨some { entry with stragglerReported := true }, span, up, down, noted⟩ := by
  have shorter : ∀ {frames : List (ServerFrame C M Ep)}, Stragglers channel entry (.deliver channel rows :: frames) →
      entry.hasBeenActive = true ∧ Stragglers channel { entry with stragglerReported := true } frames := by
    intro frames left
    have was := left.known (List.cons_ne_nil _ _)
    exact ⟨was, fun frame member => left.passes frame (List.mem_cons_of_mem _ member), fun _ => was⟩
  have keeps : Kept profile channel entry noted → Kept profile channel { entry with stragglerReported := true } noted :=
    fun kept => ⟨kept.admissible, kept.token, kept.unheld, kept.latest, kept.covered⟩
  generalize listed : ServerFrame.deliver channel rows :: down = frames at standing
  cases standing with
  | idle kept free left =>
    obtain ⟨was, left⟩ := shorter (listed ▸ left)
    exact ⟨was, .idle (keeps kept) free left⟩
  | closing kept free was left =>
    obtain ⟨-, left⟩ := shorter (listed ▸ left)
    exact ⟨was, .closing (keeps kept) free was left⟩
  | asked kept asking left =>
    obtain ⟨was, left⟩ := shorter (listed ▸ left)
    exact ⟨was, .asked (keeps kept) ⟨asking.pending, asking.spanHw, asking.admissible, asking.own, asking.stated⟩
      left⟩
  | reasked kept was asking left =>
    obtain ⟨-, left⟩ := shorter (listed ▸ left)
    exact ⟨was, .reasked (keeps kept) was
      ⟨asking.pending, asking.spanHw, asking.admissible, asking.own, asking.stated⟩ left⟩
  | @opened _ _ before after _ _ _ kept pending none left flowing =>
    cases before with
    | nil => cases listed
    | cons frame before =>
      obtain ⟨rfl, rfl⟩ := List.cons.inj listed
      obtain ⟨was, left⟩ := shorter left
      exact ⟨was, .opened (keeps kept) pending none left
        ⟨flowing.passes, flowing.numbered, flowing.reached, flowing.stated⟩⟩
  | @refused _ before _ _ _ kept pending left =>
    cases before with
    | nil => cases listed
    | cons frame before =>
      obtain ⟨rfl, rfl⟩ := List.cons.inj listed
      obtain ⟨was, left⟩ := shorter left
      exact ⟨was, .refused (keeps kept) pending left⟩
  | active _ live _ _ _ _ => exact absurd live elsewhere

/-- The client's entry once it has taken a pass in, up to a seq and with its last cursor. -/
def ChannelSubscription.advanced (entry : ChannelSubscription (Cursor C Ep)) (hw : Option Nat) (last : Cursor C Ep) :
    ChannelSubscription (Cursor C Ep) :=
  { entry with
    spanHw := hw
    token := match entry.resumePolicy with
      | .resume => some last
      | .cursorless => entry.token }

/-- A pass of the span the client is on is accepted: its seqs follow on, and its rows are noted. -/
theorem Standing.receivePass {entry : ChannelSubscription (Cursor C Ep)} {head : DeliverRow (Retained M) (Cursor C Ep)}
    {rest : List (DeliverRow (Retained M) (Cursor C Ep))}
    (standing : Standing profile channel ⟨some entry, span, up, .deliver channel (head :: rest) :: down, noted⟩)
    (live : entry.wire = .active) :
    entry.hasBeenActive = true ∧
      ∃ hw, spanAdvance entry.spanHw (head :: rest) = .ok hw ∧
        Standing profile channel
          ⟨some (entry.advanced hw (rest.getLast?.getD head).cursor), span, up, down, noted ++ notesOf (head :: rest)⟩ := by
  generalize listed : ServerFrame.deliver channel (head :: rest) :: down = frames at standing
  cases standing with
  | @active _ span _ _ kept _ held was current flowing =>
    subst listed
    obtain ⟨passes, numbered, reached, statement, stated, facts, promise⟩ := flowing
    have pass := passes _ List.mem_cons_self
    obtain ⟨_, same, nonempty, -, cursors⟩ := pass
    cases same
    rw [rowsOf_deliver, numbered_append] at numbered
    rw [rowsOf_deliver, List.length_append] at reached
    rw [rowsOf_deliver, notesOf_append, ← List.append_assoc] at promise
    refine ⟨was, _, spanAdvance_numbered _ _ numbered.1 nonempty, ?_⟩
    obtain rfl := Option.some.inj (stated.symm.trans current)
    refine .active ⟨kept.admissible, ?_, fun none => absurd none held.ne', fun resumes p dropped last => ?_,
      fun promised => (List.isChain_append.mp (promise promised).1).1⟩ live held was current
      ⟨fun frame member => passes frame (List.mem_cons_of_mem _ member), ?_, ?_, _, current, facts, promise⟩
    · intro cursor presented
      cases policy : entry.resumePolicy with
      | resume =>
        simp only [ChannelSubscription.advanced, policy, Option.mem_def, Option.some.injEq] at presented
        subst presented
        refine (cursors _ ?_).1
        exact List.mem_of_getLast? List.getLast?_cons
      | cursorless =>
        simp only [ChannelSubscription.advanced, policy] at presented
        exact kept.token cursor presented
    · rw [List.getLast?_append_of_ne_nil _ (by simp [notesOf])] at last
      have there := notesOf_last last fun row member => (cursors row member).2
      have resumes' : entry.resumePolicy = .resume := resumes
      exact ⟨_, by simp [ChannelSubscription.advanced, resumes'], there⟩
    · simpa [ChannelSubscription.advanced, Nat.add_right_comm] using numbered.2
    · rw [ChannelSubscription.advanced, Option.getD_some]
      omega
  | idle _ free _ => exact absurd (free.symm.trans live) (by simp)
  | closing _ free _ _ => exact absurd (free.symm.trans live) (by simp)
  | asked _ asking _ => exact absurd (asking.pending.symm.trans live) (by simp)
  | reasked _ _ asking _ => exact absurd (asking.pending.symm.trans live) (by simp)
  | opened _ pending _ _ _ => exact absurd (pending.symm.trans live) (by simp)
  | refused _ pending _ => exact absurd (pending.symm.trans live) (by simp)

/-- Only a channel the client knows has frames on its way to it. -/
theorem Standing.known {frame : ServerFrame C M Ep}
    (standing : Standing profile channel ⟨entry, span, up, frame :: down, noted⟩) : ∃ known, entry = some known := by
  generalize listed : frame :: down = frames at standing
  cases standing with
  | absent => cases listed
  | idle | closing | asked | reasked | opened | refused | active => exact ⟨_, rfl⟩

/-- A gap that is told is noted, and what follows it starts over. -/
theorem Kept.noteGap {entry : ChannelSubscription (Cursor C Ep)} (kept : Kept profile channel entry noted)
    (held : entry.refcount ≠ 0) (gap : Option GapInfo) : Kept profile channel entry (noted ++ gapNote gap) := by
  cases gap with
  | none => rwa [gapNote, Option.isSome_none, if_neg Bool.false_ne_true, List.append_nil]
  | some info =>
    refine ⟨kept.admissible, kept.token, fun none => absurd none held, fun _ p dropped last => ?_, fun promised => ?_⟩
    · simp [gapNote] at last
    · refine List.isChain_append.mpr ⟨kept.covered promised, .singleton _, fun last _ first next => ?_⟩
      obtain rfl : first = .gap := by simpa [gapNote] using next.symm
      cases last <;> trivial

def ChannelSubscription.acknowledged (entry : ChannelSubscription (Cursor C Ep)) : ChannelSubscription (Cursor C Ep) :=
  { entry with hasBeenActive := true, stragglerReported := false }

theorem Standing.receiveUnavailable {entry : ChannelSubscription (Cursor C Ep)} {count : Nat} {gap : Option GapInfo}
    (standing : Standing profile channel
      ⟨some entry, span, up, .subscribeResult channel .unavailable count gap :: down, noted⟩) :
    entry.wire = .pending ∧ Standing profile channel
      ⟨some { entry with wire := .unsubscribed, refcount := 0, spanHw := none, stated := none }, span, up, down, []⟩ := by
  generalize listed : ServerFrame.subscribeResult channel .unavailable count gap :: down = frames at standing
  have notPass : ¬ IsPass channel (.subscribeResult channel .unavailable count gap : ServerFrame C M Ep) := by
    rintro ⟨rows, other, -⟩
    cases other
  have noStray : ∀ {frames : List (ServerFrame C M Ep)},
      ¬ Stragglers channel entry (.subscribeResult channel .unavailable count gap :: frames) :=
    fun left => notPass (left.passes _ List.mem_cons_self)
  cases standing with
  | @refused _ before _ _ _ kept pending left =>
    cases before with
    | nil =>
      obtain ⟨-, rfl⟩ := List.cons.inj listed
      exact ⟨pending, .idle ⟨kept.admissible, kept.token, fun _ => rfl, by simp, fun _ => .nil⟩ rfl ⟨by simp, by simp⟩⟩
    | cons frame before =>
      obtain ⟨rfl, -⟩ := List.cons.inj listed
      exact absurd left noStray
  | @opened _ _ before after _ _ _ kept pending none left flowing =>
    cases before with
    | nil => cases listed
    | cons frame before =>
      obtain ⟨rfl, -⟩ := List.cons.inj listed
      exact absurd left noStray
  | idle _ _ left => exact absurd (listed ▸ left) noStray
  | closing _ _ _ left => exact absurd (listed ▸ left) noStray
  | asked _ _ left => exact absurd (listed ▸ left) noStray
  | reasked _ _ _ left => exact absurd (listed ▸ left) noStray
  | active _ _ _ _ _ flowing => exact absurd (flowing.passes _ (listed ▸ List.mem_cons_self)) notPass

/-- The acknowledgement closes a channel nobody holds any more, asks again for one stated otherwise since, and opens
    the rest. -/
theorem Standing.receiveOk {entry : ChannelSubscription (Cursor C Ep)} {count : Nat} {gap : Option GapInfo}
    (standing : Standing profile channel ⟨some entry, span, up, .subscribeResult channel .ok count gap :: down, noted⟩) :
    entry.wire = .pending ∧
    (entry.refcount = 0 → Standing profile channel
      ⟨some { entry.acknowledged with wire := .unsubscribed }, span, up ++ [.unsubscribe channel], down, noted⟩) ∧
    (entry.refcount ≠ 0 → entry.stated ≠ some (entry.depths, entry.resumePolicy) → Standing profile channel
      ⟨some (entry.acknowledged.subscribeFrame channel).2, span,
        up ++ [.unsubscribe channel, (entry.acknowledged.subscribeFrame channel).1], down, noted ++ gapNote gap⟩) ∧
    (entry.refcount ≠ 0 → entry.stated = some (entry.depths, entry.resumePolicy) → Standing profile channel
      ⟨some { entry.acknowledged with wire := .active }, span, up, down, noted ++ gapNote gap⟩) := by
  generalize listed : ServerFrame.subscribeResult channel .ok count gap :: down = frames at standing
  have notPass : ¬ IsPass channel (.subscribeResult channel .ok count gap : ServerFrame C M Ep) := by
    rintro ⟨rows, other, -⟩
    cases other
  have noStray : ∀ {frames : List (ServerFrame C M Ep)},
      ¬ Stragglers channel entry (.subscribeResult channel .ok count gap :: frames) :=
    fun left => notPass (left.passes _ List.mem_cons_self)
  cases standing with
  | @opened _ span before after _ _ _ kept pending none left flowing =>
    cases before with
    | nil =>
      obtain ⟨same, rfl⟩ := List.cons.inj listed
      cases same
      have acknowledged : ∀ {noted}, Kept profile channel entry noted → Kept profile channel entry.acknowledged noted :=
        fun kept => ⟨kept.admissible, kept.token, kept.unheld, kept.latest, kept.covered⟩
      have strays : ∀ {entry : ChannelSubscription (Cursor C Ep)}, entry.hasBeenActive = true →
          Stragglers channel entry down := fun was => ⟨flowing.passes, fun _ => was⟩
      have closing : ∀ {noted}, Kept profile channel entry noted → Standing profile channel
          ⟨some { entry.acknowledged with wire := .unsubscribed }, some span, [.unsubscribe channel], down, noted⟩ :=
        fun kept => .closing ⟨kept.admissible, kept.token, kept.unheld, kept.latest, kept.covered⟩ rfl rfl (strays rfl)
      refine ⟨pending, fun _ => closing kept, fun held _ => ?_, fun held current => ?_⟩
      · exact (closing (kept.noteGap held gap)).subscribe rfl
      · refine .active ?_ rfl (Nat.pos_of_ne_zero held) rfl current ?_
        · have noted := kept.noteGap held gap
          exact ⟨noted.admissible, noted.token, noted.unheld, noted.latest, noted.covered⟩
        · obtain ⟨passes, numbered, reached, stated⟩ := flowing
          rw [← List.append_assoc] at stated
          have start : entry.spanHw.getD 0 = 0 := by rw [none, Option.getD_none]
          exact ⟨passes, by simpa [ChannelSubscription.acknowledged, start] using numbered,
            by simpa [ChannelSubscription.acknowledged, start] using reached, stated⟩
    | cons frame before =>
      obtain ⟨rfl, -⟩ := List.cons.inj listed
      exact absurd left noStray
  | @refused _ before _ _ _ kept pending left =>
    cases before with
    | nil => cases listed
    | cons frame before =>
      obtain ⟨rfl, -⟩ := List.cons.inj listed
      exact absurd left noStray
  | idle _ _ left => exact absurd (listed ▸ left) noStray
  | closing _ _ _ left => exact absurd (listed ▸ left) noStray
  | asked _ _ left => exact absurd (listed ▸ left) noStray
  | reasked _ _ _ left => exact absurd (listed ▸ left) noStray
  | active _ _ _ _ _ flowing => exact absurd (flowing.passes _ (listed ▸ List.mem_cons_self)) notPass

/-- With nothing on the links, the channel is open on both sides or on neither. -/
theorem Standing.drained (standing : Standing profile channel (⟨entry, span, [], [], noted⟩ : Thread C M Ep)) :
    span.isSome ↔ ∃ known, entry = some known ∧ known.wire = .active := by
  generalize quiet : ([] : List (ServerFrame C M Ep)) = down at standing
  cases standing with
  | absent => simp
  | idle _ free _ => simp [free]
  | opened => simp at quiet
  | refused => simp at quiet
  | active _ live _ _ _ _ => simp [live]

/-- With nothing on the links, a held channel is open or waits to be asked for. -/
theorem Standing.settled {entry : ChannelSubscription (Cursor C Ep)}
    (standing : Standing profile channel (⟨some entry, span, [], [], noted⟩ : Thread C M Ep)) :
    entry.wire = .active ∨ entry.wire = .unsubscribed := by
  generalize quiet : ([] : List (ServerFrame C M Ep)) = down at standing
  cases standing with
  | idle _ free _ => exact .inr free
  | opened => simp at quiet
  | refused => simp at quiet
  | active _ live _ _ _ _ => exact .inl live

end Intake

end Brenn.Attach
