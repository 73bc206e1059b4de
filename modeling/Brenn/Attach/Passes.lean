import Brenn.Attach.Standing

/-!
What each send path of a session puts on the wire.

A pass of consecutive positions numbers its rows after the span's last seq and gives each the
cursor of its own position. The live path and the drain go on from the span's position or
say how much they skip; the answer to a subscribe does so from where it was asked to resume.
-/

namespace Brenn.Attach
open Brenn.Lib Brenn.Queue Brenn.Store Std

universe u v w x

variable {C : Type u} {M : Type v} {Ep : Type w} [LinearOrder C]

def Session.span (session : Session C Ep) (channel : C) : Option (Span Ep) :=
  match session.active[channel]?, session.cursors.spanSeq[channel]?, session.cursors.pos[channel]? with
  | some facts, some seq, some pos => some ⟨facts, seq, pos⟩
  | _, _, _ => none

def Session.Synced (session : Session C Ep) : Prop :=
  ∀ channel : C, session.active[channel]?.isSome → (session.span channel).isSome

theorem Session.span_eq_some {session : Session C Ep} {channel : C} {span : Span Ep} :
    session.span channel = some span ↔ session.active[channel]? = some span.facts ∧
      session.cursors.spanSeq[channel]? = some span.seq ∧ session.cursors.pos[channel]? = some span.pos := by
  unfold Session.span
  constructor
  · intro found
    split at found
    next facts seq pos active spanSeq position =>
      cases found
      exact ⟨active, spanSeq, position⟩
    next => cases found
  · rintro ⟨active, spanSeq, position⟩
    rw [active, spanSeq, position]

theorem Session.span_isSome {session : Session C Ep} (synced : session.Synced) (channel : C) :
    (session.span channel).isSome = session.active[channel]?.isSome := by
  by_cases active : session.active[channel]?.isSome
  · rw [active, synced channel active]
  · rw [Bool.not_eq_true, Option.isSome_eq_false_iff, Option.isNone_iff_eq_none] at active
    simp [span, active]

/-! ### Minting -/

def passNotes (pass : List (PassRow M)) : List Note := pass.map fun row => .row row.retained.seq row.dropped

theorem passNotes_chain {first : Nat} {pass : List (PassRow M)}
    (dense : Numbered (fun row => row.retained.seq) first pass) : (passNotes pass).IsChain Note.Covers := by
  induction pass generalizing first with
  | nil => exact .nil
  | cons row pass ih =>
    obtain ⟨here, rest⟩ := numbered_cons.mp dense
    cases pass with
    | nil => exact .singleton _
    | cons next pass =>
      have there := (numbered_cons.mp rest).1
      exact .cons_cons ⟨by omega, .inl (by omega)⟩ (ih rest)

theorem mintRows_spec {channel : C} {first : Nat} {pass : List (PassRow M)} {cursors : WireCursors C Ep} {seq : Nat}
    {pos : Resume Ep} (spanSeq : cursors.spanSeq[channel]? = some seq) (position : cursors.pos[channel]? = some pos)
    (dense : Numbered (fun row => row.retained.seq) first pass) (above : pos.seq ≤ first) :
    ∃ rows cursors', WireCursors.mintRows channel pass cursors = some (rows, cursors') ∧
      notesOf rows = passNotes pass ∧ Numbered DeliverRow.seq (seq + 1) rows ∧ rows.length = pass.length ∧
      (∀ row ∈ rows, Own channel row.cursor ∧ At row.envelope.seq row.cursor) ∧
      (∀ other : C, cursors'.spanSeq[other]? =
        if channel = other then some (seq + pass.length) else cursors.spanSeq[other]?) ∧
      (∀ other : C, cursors'.pos[other]? = if channel = other then
        some ⟨pos.epoch, (pass.getLast?.map fun row => row.retained.seq).getD pos.seq⟩ else cursors.pos[other]?) ∧
      cursors'.incarnation = cursors.incarnation := by
  induction pass generalizing cursors seq pos first with
  | nil => exact ⟨[], cursors, rfl, rfl, numbered_nil, rfl, by simp, lookup_held spanSeq, lookup_held position, rfl⟩
  | cons row pass ih =>
    obtain ⟨here, rest⟩ := numbered_cons.mp dense
    have reached : max pos.seq row.retained.seq = row.retained.seq := max_eq_right (by omega)
    let pos' : Resume Ep := ⟨pos.epoch, row.retained.seq⟩
    let moved : WireCursors C Ep := { cursors with
      spanSeq := cursors.spanSeq.insert channel (seq + 1), pos := cursors.pos.insert channel pos' }
    have next : cursors.next channel row.retained.seq =
        some ((seq + 1, mint cursors.incarnation channel pos'), moved) := by
      simp [WireCursors.next, spanSeq, position, reached, moved, pos']
    have spanSeq' : moved.spanSeq[channel]? = some (seq + 1) := by simp [moved]
    have position' : moved.pos[channel]? = some pos' := by simp [moved]
    obtain ⟨rows, after, minted, notes, numbered, length, cursorsOf, spans, positions, incarnation⟩ :=
      ih spanSeq' position' rest (by simp [pos']; omega)
    refine ⟨⟨row.retained, seq + 1, mint cursors.incarnation channel pos', row.dropped⟩ :: rows, after, ?_, ?_, ?_, ?_, ?_,
      fun other => ?_, fun other => ?_, incarnation⟩
    · simp [WireCursors.mintRows, next, minted]
    · rw [passNotes, List.map_cons, ← passNotes, ← notes]
      rfl
    · exact numbered_cons.mpr ⟨rfl, numbered⟩
    · rw [List.length_cons, List.length_cons, length]
    · intro item member
      rcases List.mem_cons.mp member with rfl | later
      · exact ⟨⟨_, rfl, rfl⟩, ⟨_, rfl, rfl⟩⟩
      · exact cursorsOf item later
    · rw [spans, List.length_cons, lookup_insert]
      split
      · congr 1
        omega
      · rfl
    · rw [positions, lookup_insert, List.getLast?_cons]
      split
      · cases pass.getLast? <;> rfl
      · rfl

structure Minted (channel : C) (span : Span Ep) (pass : List (PassRow M))
    (rows : List (DeliverRow (Retained M) (Cursor C Ep))) (span' : Span Ep) : Prop where
  wellFormed : IsPass channel (.deliver channel rows)
  notes : notesOf rows = passNotes pass
  numbered : Numbered DeliverRow.seq (span.seq + 1) rows
  seq : span'.seq = span.seq + rows.length
  facts : span'.facts = span.facts
  position : span'.pos.seq = (pass.getLast?.map fun row => row.retained.seq).getD span.pos.seq

omit [LinearOrder C] in
theorem Minted.reaches {channel : C} {span span' : Span Ep} {pass : List (PassRow M)}
    {rows : List (DeliverRow (Retained M) (Cursor C Ep))} (minted : Minted channel span pass rows span') :
    Reaches (notesOf rows) span'.pos.seq := by
  intro p dropped last
  rw [minted.notes, passNotes, List.getLast?_map, Option.map_eq_some_iff] at last
  obtain ⟨row, listed, same⟩ := last
  rw [minted.position, listed]
  exact (Note.row.inj same).1

structure Wrote (session : Session C Ep) (channel : C) (session' : Session C Ep) : Prop where
  synced : session'.Synced
  others : ∀ other, channel ≠ other → session'.span other = session.span other
  active : session'.active = session.active

theorem Session.sendPass_spec {session : Session C Ep} {channel : C} {span : Span Ep} {pass : List (PassRow M)}
    {first : Nat} (synced : session.Synced) (open' : session.span channel = some span)
    (dense : Numbered (fun row => row.retained.seq) first pass) (above : span.pos.seq ≤ first) (nonempty : pass ≠ [])
    (losses : ∀ row ∈ pass.tail, row.dropped = 0) :
    ∃ rows session' span', session.sendPass channel pass = some ([.deliver channel rows], session') ∧
      Wrote session channel session' ∧ session'.span channel = some span' ∧ Minted channel span pass rows span' := by
  obtain ⟨active, spanSeq, position⟩ := span_eq_some.mp open'
  obtain ⟨rows, cursors, minted, notes, numbered, length, cursorsOf, spans, positions, -⟩ :=
    mintRows_spec spanSeq position dense above
  obtain ⟨row, rest, rfl⟩ := List.exists_cons_of_ne_nil nonempty
  have sent : session.sendPass channel (row :: rest) =
      some ([.deliver channel rows], { session with cursors }) := by
    simp [sendPass, minted]
  let span' : Span Ep := ⟨span.facts, span.seq + (row :: rest).length,
    ⟨span.pos.epoch, ((row :: rest).getLast?.map fun row => row.retained.seq).getD span.pos.seq⟩⟩
  have here : Session.span { session with cursors } channel = some span' := by
    rw [span_eq_some, spans, if_pos rfl, positions, if_pos rfl]
    exact ⟨active, rfl, rfl⟩
  have others : ∀ other, channel ≠ other → Session.span { session with cursors } other = session.span other := by
    intro other apart
    simp only [Session.span, spans, if_neg apart, positions]
  refine ⟨rows, _, span', sent, ⟨fun other isActive => ?_, others, rfl⟩, here, ?_⟩
  · by_cases same : channel = other
    · rw [← same, here, Option.isSome_some]
    · rw [others other same]
      exact synced other isActive
  · have rowsLosses : ∀ item ∈ rows.tail, item.dropped = 0 := by
      intro item member
      have inside : Note.row item.envelope.seq item.dropped ∈ (notesOf rows).tail := by
        rw [notesOf, ← List.map_tail]
        exact List.mem_map_of_mem member
      rw [notes, passNotes, ← List.map_tail, List.mem_map] at inside
      obtain ⟨source, listed, same⟩ := inside
      rw [← (Note.row.inj same).2]
      exact losses source listed
    have some : rows ≠ [] := by
      intro none
      rw [none] at length
      cases length
    exact ⟨⟨rows, rfl, some, rowsLosses, cursorsOf⟩, notes, numbered, by rw [length], rfl, rfl⟩

/-! ### Live copies and drains -/

/-- A turn that writes nothing, or one pass on an open span. -/
def Feeds (session : Session C Ep) (channel : C) (result : List (ServerFrame C M Ep) × Session C Ep) : Prop :=
  result = ([], session) ∨ ∃ rows span span', result.1 = [.deliver channel rows] ∧ Wrote session channel result.2 ∧
    session.span channel = some span ∧ result.2.span channel = some span' ∧ Sent channel span rows span'

omit [LinearOrder C] in
/-- A pass that goes on from the span's position, or says on its first row how much it skips. -/
theorem Minted.sent {channel : C} {span span' : Span Ep} {row : PassRow M} {pass : List (PassRow M)}
    {rows : List (DeliverRow (Retained M) (Cursor C Ep))} {first : Nat}
    (minted : Minted channel span (row :: pass) rows span')
    (dense : Numbered (fun row => row.retained.seq) first (row :: pass)) (above : span.pos.seq < first)
    (skips : span.facts.pushEnabled = true → first = span.pos.seq + 1 ∨ row.dropped = first - span.pos.seq - 1) :
    Sent channel span rows span' where
  pass := minted.wellFormed
  numbered := minted.numbered
  seq := minted.seq
  facts := minted.facts
  covered enabled dropped := by
    obtain rfl := (numbered_cons.mp dense).1
    rw [minted.notes]
    exact .cons_cons ⟨above, skips enabled⟩ (passNotes_chain dense)
  reaches := minted.reaches

omit [LinearOrder C] in
theorem lossOnFirst_dense {lost first : Nat} {window : List (Retained M)} (dense : Numbered Retained.seq first window) :
    Numbered (fun row : PassRow M => row.retained.seq) first (Session.lossOnFirst lost window) := by
  cases window with
  | nil => exact numbered_nil
  | cons head rest =>
    obtain ⟨here, later⟩ := numbered_cons.mp dense
    refine numbered_cons.mpr ⟨here, ?_⟩
    rw [Numbered, List.map_map, List.length_map]
    exact later

variable {σ : Type x} [RetentionStore σ M Ep] {session : Session C Ep} {profile : Profile C} {directory : C → Option σ}
  {channel : C} {span : Span Ep}

/-- What a drain serves begins above the position, and any skip is in its loss. -/
theorem drainWindow_spec {facts : SubscriptionFacts} {cursor : Resume Ep} {replay : StoreReplay M Ep}
    (honest : Honest (some cursor) replay) {head : Retained M} {rest : List (Retained M)} {lost : Nat}
    (served : Session.drainWindow facts cursor replay = (head :: rest, lost)) :
    ∃ first, Numbered Retained.seq first (head :: rest) ∧ cursor.seq < first ∧
      (facts.pushEnabled = true → first = cursor.seq + 1 ∨ lost = first - cursor.seq - 1) := by
  unfold Session.drainWindow at served
  cases decision : replay.decision with
  | fresh => exact absurd (honest.fresh.mp decision) (by simp)
  | upToDate =>
    rw [decision] at served
    rw [honest.upToDate decision] at served
    cases served
  | exact =>
    rw [decision] at served
    obtain ⟨same, -⟩ := Prod.mk.inj served
    exact ⟨cursor.seq + 1, same ▸ honest.exact cursor rfl decision, Nat.lt_succ_self _, fun _ => .inl rfl⟩
  | gap reason =>
    rw [decision] at served
    obtain ⟨same, loss⟩ := Prod.mk.inj served
    obtain ⟨oldest, dense⟩ := honest.dense
    have cut : head :: rest = replay.messages.drop (cursor.seq + 1 - oldest) := by
      rw [← dense.filter_ge, ← same]
      simp only [gt_iff_lt, Nat.succ_le_iff]
    have inside : cursor.seq + 1 - oldest ≤ replay.messages.length := by
      by_contra beyond
      rw [List.drop_of_length_le (by omega)] at cut
      cases cut
    have suffix : Numbered Retained.seq (oldest + (cursor.seq + 1 - oldest)) (head :: rest) := cut ▸ dense.drop inside
    have here := (numbered_cons.mp suffix).1
    refine ⟨_, suffix, by omega, fun enabled => .inr ?_⟩
    rw [if_pos enabled] at loss
    rw [← loss, same, List.head?_cons, Option.map_some, Option.getD_some, here]

theorem Session.drainChannel_spec (synced : session.Synced) (open' : session.span channel = some span) {store : σ}
    (there : directory channel = some store) :
    ∃ result, session.drainChannel profile directory channel = some result ∧ Feeds session channel result := by
  obtain ⟨active, -, position⟩ := span_eq_some.mp open'
  rcases served : drainWindow span.facts span.pos (RetentionStore.replayFrom store (some span.pos) span.facts.replayClamp)
    with ⟨window, lost⟩
  by_cases quiet : window.isEmpty || !profile.allowsChannelAccess channel
  · exact ⟨([], session), by simp only [drainChannel, active, position, there, served, quiet, if_true], .inl rfl⟩
  · cases window with
    | nil => exact absurd rfl quiet
    | cons head rest =>
      obtain ⟨first, dense, above, skips⟩ :=
        drainWindow_spec (RetentionStore.honest store (some span.pos) span.facts.replayClamp) served
      have passDense := @lossOnFirst_dense _ lost _ _ dense
      obtain ⟨rows, session', span', sent, wrote, open'', minted⟩ := sendPass_spec synced open' passDense above.le
        (List.cons_ne_nil _ _) (by simp [lossOnFirst])
      refine ⟨([.deliver channel rows], session'), ?_,
        .inr ⟨rows, span, span', rfl, wrote, open', open'', minted.sent passDense above skips⟩⟩
      simp only [drainChannel, active, position, there, served]
      rw [if_neg quiet, sent]

theorem Session.sendLiveCopy_spec (synced : session.Synced) (there : (directory channel).isSome) (copy : Retained M) :
    ∃ result, session.sendLiveCopy profile directory channel copy = some result ∧ Feeds session channel result := by
  unfold sendLiveCopy
  by_cases inactive : session.active[channel]?.isNone
  · exact ⟨([], session), if_pos inactive, .inl rfl⟩
  · rw [if_neg inactive]
    by_cases denied : !profile.allowsChannelAccess channel
    · exact ⟨([], session), if_pos denied, .inl rfl⟩
    · rw [if_neg denied]
      obtain ⟨span, open'⟩ := Option.isSome_iff_exists.mp (synced channel (by simpa using inactive))
      obtain ⟨-, -, position⟩ := span_eq_some.mp open'
      obtain ⟨store, found⟩ := Option.isSome_iff_exists.mp there
      simp only [position]
      by_cases duplicate : copy.seq ≤ span.pos.seq
      · exact ⟨([], session), if_pos duplicate, .inl rfl⟩
      · rw [if_neg duplicate]
        by_cases next : copy.seq = span.pos.seq + 1
        · rw [if_pos next]
          have dense : Numbered (fun row : PassRow M => row.retained.seq) copy.seq [⟨copy, 0⟩] :=
            numbered_cons.mpr ⟨rfl, numbered_nil⟩
          obtain ⟨rows, session', span', sent, wrote, open'', minted⟩ := sendPass_spec synced open' dense (by omega)
            (List.cons_ne_nil _ _) (by simp)
          exact ⟨_, sent, .inr ⟨rows, span, span', rfl, wrote, open', open'',
            minted.sent dense (by omega) fun _ => .inl next⟩⟩
        · rw [if_neg next]
          exact drainChannel_spec synced open' found

/-! ### Opening -/

def replayPass (shown : List (Retained M)) : List (PassRow M) := shown.map fun retained => ⟨retained, 0⟩

omit [LinearOrder C] in
theorem replayPass_dense {first : Nat} {shown : List (Retained M)} (dense : Numbered Retained.seq first shown) :
    Numbered (fun row : PassRow M => row.retained.seq) first (replayPass shown) := by
  rw [Numbered, replayPass, List.map_map, List.length_map]
  exact dense

/-- An answer that tells of no gap goes on from the position it was asked to resume at. -/
theorem resumeAnswer_covers {cursor : Option (Resume Ep)} {replay : StoreReplay M Ep} (honest : Honest cursor replay)
    {shown : List (Retained M)} (cut : shown = replay.messages ∨ shown = []) {told : Option GapInfo}
    (tells : told = none → (resumeAnswer replay.decision (cursor.map Resume.seq)).1 = none) {notes : List Note}
    (chain : notes.IsChain Note.Covers)
    (latest : told = none → ∀ p dropped, notes.getLast? = some (.row p dropped) →
      ∃ resume, cursor = some resume ∧ resume.seq = p) :
    let position := (shown.getLast?.map Retained.seq).getD (resumeAnswer replay.decision (cursor.map Resume.seq)).2
    (notes ++ (gapNote told ++ passNotes (replayPass shown))).IsChain Note.Covers ∧
      Reaches (notes ++ (gapNote told ++ passNotes (replayPass shown))) position := by
  intro position
  obtain ⟨first, dense⟩ : ∃ first, Numbered Retained.seq first shown := by
    rcases cut with same | none
    · exact same ▸ honest.dense
    · exact ⟨0, none ▸ numbered_nil⟩
  have rowsChain := passNotes_chain (replayPass_dense dense)
  have rowsReach : Reaches (passNotes (replayPass shown)) position := by
    intro p dropped last
    rw [passNotes, replayPass, List.map_map, List.getLast?_map, Option.map_eq_some_iff] at last
    obtain ⟨retained, listed, same⟩ := last
    simp only [position, listed, Option.map_some, Option.getD_some]
    exact (Note.row.inj same).1
  have empty : passNotes (replayPass shown) = [] → shown = [] := fun none => by
    simpa [passNotes, replayPass] using none
  cases told with
  | some info =>
    have gapReach : Reaches [.gap] position := by simp [Reaches]
    have restChain : (Note.gap :: passNotes (replayPass shown)).IsChain Note.Covers :=
      List.isChain_cons.mpr ⟨fun _ _ => trivial, rowsChain⟩
    refine ⟨List.isChain_append.mpr ⟨chain, restChain, fun last _ next here => ?_⟩, fun p dropped last => ?_⟩
    · obtain rfl : next = .gap := by simpa [gapNote] using here.symm
      cases last <;> trivial
    · rw [List.getLast?_append_of_ne_nil _ (by simp [gapNote])] at last
      exact gapReach.append rowsReach (fun _ => rfl) p dropped last
  | none =>
    rw [gapNote, Option.isSome_none, if_neg Bool.false_ne_true, List.nil_append]
    have told := tells rfl
    -- whoever presented a position is answered from it
    have anchored : ∀ p dropped, notes.getLast? = some (.row p dropped) →
        (resumeAnswer replay.decision (cursor.map Resume.seq)).2 = p ∧ (shown = [] ∨ first = p + 1) := by
      intro p dropped last
      obtain ⟨resume, rfl, rfl⟩ := latest rfl p dropped last
      cases decision : replay.decision with
      | fresh => exact absurd (honest.fresh.mp decision) (by simp)
      | upToDate =>
        refine ⟨rfl, .inl ?_⟩
        rcases cut with same | none
        · rw [same, honest.upToDate decision]
        · exact none
      | exact =>
        refine ⟨rfl, ?_⟩
        rcases cut with rfl | none
        · have exactly := honest.exact resume rfl decision
          cases messages : replay.messages with
          | nil => exact .inl rfl
          | cons head rest =>
            rw [messages] at exactly dense
            exact .inr ((numbered_cons.mp dense).1.symm.trans (numbered_cons.mp exactly).1)
        · exact .inl none
      | gap reason => cases reason <;> simp [decision, resumeAnswer] at told
    have reaches : Reaches notes (resumeAnswer replay.decision (cursor.map Resume.seq)).2 := fun p dropped last =>
      (anchored p dropped last).1
    refine ⟨List.isChain_append.mpr ⟨chain, rowsChain, fun last here next front => ?_⟩, fun p dropped last => ?_⟩
    · cases last with
      | gap => trivial
      | row p dropped =>
        cases shown with
        | nil => simp [passNotes, replayPass] at front
        | cons head rest =>
          obtain rfl : Note.row head.seq 0 = next := by simpa [passNotes, replayPass] using front
          have start := (anchored p dropped here).2.resolve_left (by simp)
          have number := (numbered_cons.mp dense).1
          exact ⟨by omega, .inl (by omega)⟩
    · refine reaches.append rowsReach (fun none => ?_) p dropped last
      simp [position, empty none]

theorem resumeAnswer_le {cursor : Option (Resume Ep)} {replay : StoreReplay M Ep} (honest : Honest cursor replay)
    {first : Nat} (dense : Numbered Retained.seq first replay.messages) (some : replay.messages ≠ []) :
    (resumeAnswer replay.decision (cursor.map Resume.seq)).2 ≤ first := by
  cases decision : replay.decision with
  | fresh => exact Nat.zero_le _
  | upToDate => exact absurd (honest.upToDate decision) some
  | gap reason => cases reason <;> exact Nat.zero_le _
  | exact =>
    cases cursor with
    | none => exact Nat.zero_le _
    | some resume =>
      obtain ⟨head, rest, messages⟩ := List.exists_cons_of_ne_nil some
      have exactly := honest.exact resume rfl decision
      rw [messages] at exactly dense
      have here := (numbered_cons.mp exactly).1
      have there := (numbered_cons.mp dense).1
      simp only [resumeAnswer, Option.map_some, Option.getD_some]
      omega

def Echoes (resume : Option (Cursor C Ep)) (echoed : Option (CursorState C Ep)) : Prop :=
  match resume with
  | none => echoed = none
  | some cursor => ∃ state, cursor.parsed = .ok state ∧ echoed = some state

structure Opened (session : Session C Ep) (channel : C) (session' : Session C Ep) : Prop where
  synced : session'.Synced
  others : ∀ other, channel ≠ other → session'.span other = session.span other

theorem Session.startSpan_spec (synced : session.Synced) (facts : SubscriptionFacts) (epoch : Ep) (anchor : Nat) :
    Opened session channel (session.startSpan channel facts epoch anchor) ∧
      (session.startSpan channel facts epoch anchor).span channel = some ⟨facts, 0, ⟨epoch, anchor⟩⟩ := by
  have here : (session.startSpan channel facts epoch anchor).span channel = some ⟨facts, 0, ⟨epoch, anchor⟩⟩ := by
    rw [span_eq_some]
    simp [startSpan, WireCursors.startSpan]
  have others : ∀ other, channel ≠ other →
      (session.startSpan channel facts epoch anchor).span other = session.span other := by
    intro other apart
    simp only [Session.span, startSpan, WireCursors.startSpan, lookup_insert, if_neg apart]
  refine ⟨⟨fun other isActive => ?_, others⟩, here⟩
  by_cases same : channel = other
  · rw [← same, here, Option.isSome_some]
  · rw [others other same]
    refine synced other ?_
    simpa only [startSpan, lookup_insert, if_neg same] using isActive

/-- A position the notes reach is the one the store was asked to resume at, unless a gap is told. -/
theorem Session.storeCursor_of_echoed {resume : Option (Cursor C Ep)} {echoed : Option (CursorState C Ep)}
    (echoes : Echoes resume echoed) (current : session.isStale echoed = false) {p : Nat}
    (presented : ∃ cursor ∈ resume, At p cursor) :
    ∃ position, session.storeCursor echoed = some position ∧ position.seq = p := by
  obtain ⟨cursor, rfl, state, parsed, rfl⟩ := presented
  obtain ⟨other, again, rfl⟩ := echoes
  obtain rfl := Except.ok.inj (parsed.symm.trans again)
  exact ⟨state.resume, by simp [storeCursor, current], rfl⟩

theorem Session.openSpan_spec (synced : session.Synced) {depths : SubscriptionDepths} {resume : Option (Cursor C Ep)}
    {echoed : Option (CursorState C Ep)} {bound : SubscriptionFacts} (granted : profile.subscribable channel = some bound)
    (echoes : Echoes resume echoed) (store : σ) :
    ∃ count gap frames session' span, session.openSpan profile channel
        ⟨min depths.pushDepth bound.pushDepth, min depths.retainDepth bound.retainDepth⟩ echoed store =
      some (.subscribeResult channel .ok count gap :: frames, session') ∧
      Opened session channel session' ∧ session'.span channel = some span ∧
      Opens profile channel depths resume gap frames span := by
  generalize stated : (⟨min depths.pushDepth bound.pushDepth, min depths.retainDepth bound.retainDepth⟩ :
    SubscriptionFacts) = facts
  unfold openSpan
  dsimp only
  have honest := RetentionStore.honest store (session.storeCursor echoed) facts.replayClamp
  generalize RetentionStore.replayFrom store (session.storeCursor echoed) facts.replayClamp = replay at honest
  generalize answered : resumeAnswer replay.decision ((session.storeCursor echoed).map Resume.seq) = answer
  generalize told : (if session.isStale echoed then some ⟨.epochChanged⟩ else answer.1) = gap
  generalize windowed : (if profile.allowsChannelAccess channel then replay.messages else []) = window
  have cut : window = replay.messages ∨ window = [] := by
    rw [← windowed]
    split
    · exact .inl rfl
    · exact .inr rfl
  have current : gap = none → session.isStale echoed = false ∧ answer.1 = none := by
    intro none
    rw [← told] at none
    by_cases isStale : session.isStale echoed = true
    · simp [isStale] at none
    · exact ⟨by simpa using isStale, by simpa [isStale] using none⟩
  have covered : ∀ notes : List Note, notes.IsChain Note.Covers →
      (∀ p dropped, notes.getLast? = some (.row p dropped) → ∃ cursor ∈ resume, At p cursor) →
      (notes ++ (gapNote gap ++ passNotes (replayPass window))).IsChain Note.Covers ∧
        Reaches (notes ++ (gapNote gap ++ passNotes (replayPass window)))
          ((window.getLast?.map Retained.seq).getD answer.2) := by
    intro notes chain presented
    subst answered
    exact resumeAnswer_covers honest cut (fun none => (current none).2) chain fun none p dropped last =>
      storeCursor_of_echoed echoes (current none).1 (presented p dropped last)
  obtain ⟨opened, here⟩ := @startSpan_spec _ _ _ _ channel synced facts replay.epoch answer.2
  cases window with
  | nil =>
    refine ⟨_, gap, [], _, _, rfl, opened, here, by simp, numbered_nil, rfl, ⟨bound, granted, stated.symm⟩, ?_⟩
    simpa [passNotes, replayPass, notesOf] using covered
  | cons head rest =>
    have messages : head :: rest = replay.messages := cut.resolve_right (by simp)
    obtain ⟨first, dense⟩ := honest.dense
    have above : answer.2 ≤ first := answered ▸ resumeAnswer_le honest dense (messages ▸ List.cons_ne_nil _ _)
    rw [← messages] at dense
    obtain ⟨rows, session', span, sent, wrote, open', minted⟩ := sendPass_spec opened.synced here
      (replayPass_dense dense) above (by simp [replayPass]) (by simp [replayPass])
    refine ⟨_, gap, [.deliver channel rows], session', span, by rw [replayPass] at sent; rw [sent]; rfl,
      ⟨wrote.synced, fun other apart => (wrote.others other apart).trans (opened.others other apart)⟩, open', ?_, ?_, ?_,
      ⟨bound, granted, minted.facts.trans stated.symm⟩, fun notes chain presented => ?_⟩
    · simpa using minted.wellFormed
    · simpa using minted.numbered
    · simpa using minted.seq.symm
    · have last : ((replayPass (head :: rest)).getLast?.map fun row => row.retained.seq) =
          (head :: rest).getLast?.map Retained.seq := by
        rw [replayPass, List.getLast?_map, Option.map_map]
        rfl
      rw [rowsOf_deliver, rowsOf_nil, List.append_nil, minted.notes, minted.position, last]
      exact covered notes chain presented

/-! ### Answering a frame -/

theorem Session.handleUnsubscribe_spec (synced : session.Synced) (open' : (session.span channel).isSome) :
    ∃ session', session.handleUnsubscribe channel = .ok session' ∧ Opened session channel session' ∧
      session'.span channel = none := by
  rw [span_isSome synced] at open'
  let closed : Session C Ep := { active := session.active.erase channel, cursors := session.cursors.clear channel }
  have others : ∀ other, channel ≠ other → closed.span other = session.span other := by
    intro other apart
    simp only [Session.span, closed, WireCursors.clear, lookup_erase, if_neg apart]
  refine ⟨closed, if_pos open', ⟨fun other isActive => ?_, others⟩, ?_⟩
  · by_cases same : channel = other
    · simp [closed, same] at isActive
    · rw [others other same]
      refine synced other ?_
      simpa only [closed, lookup_erase, if_neg same] using isActive
  · simp [Session.span, closed]

theorem Session.admitSubscribe_spec (synced : session.Synced) (closed : session.span channel = none)
    (room : session.active.size < profile.maxActiveSubscriptions) {depths : SubscriptionDepths}
    {resume : Option (Cursor C Ep)} (own : ∀ cursor ∈ resume, Own channel cursor) {bound : SubscriptionFacts}
    (granted : profile.subscribable channel = some bound)
    (window : ¬ (min depths.pushDepth bound.pushDepth = 0 ∧ min depths.retainDepth bound.retainDepth = 0)) :
    ∃ echoed, session.admitSubscribe profile channel depths resume =
        .ok (⟨min depths.pushDepth bound.pushDepth, min depths.retainDepth bound.retainDepth⟩, echoed) ∧
      Echoes resume echoed := by
  have inactive : ¬ session.active[channel]?.isSome := by
    rw [← span_isSome synced, closed]
    simp
  unfold admitSubscribe
  simp only [granted]
  rw [if_neg inactive, if_neg (Nat.not_le.mpr room), if_neg window]
  cases resume with
  | none => exact ⟨none, rfl, rfl⟩
  | some cursor =>
    obtain ⟨state, parsed, same⟩ := own cursor rfl
    refine ⟨some state, ?_, state, parsed, rfl⟩
    simp [parseResumeCursor, parsed, same, Except.map]

/-- The server answers it: nothing is opened where the channel is not there, and a span otherwise. -/
theorem Session.handleSubscribe_spec (synced : session.Synced) (closed : session.span channel = none)
    (room : session.active.size < profile.maxActiveSubscriptions) {depths : SubscriptionDepths}
    {resume : Option (Cursor C Ep)} (own : ∀ cursor ∈ resume, Own channel cursor)
    (admissible : Dialogue.Admissible profile channel depths) :
    session.handleSubscribe profile directory channel depths resume =
        some (.ok ([.subscribeResult channel .unavailable 0 none], session)) ∨
      ∃ count gap frames session' span, session.handleSubscribe profile directory channel depths resume =
        some (.ok (.subscribeResult channel .ok count gap :: frames, session')) ∧
        Opened session channel session' ∧ session'.span channel = some span ∧
        Opens profile channel depths resume gap frames span := by
  obtain ⟨bound, granted, window⟩ := admissible
  obtain ⟨echoed, admitted, echoes⟩ := admitSubscribe_spec synced closed room own granted window
  cases there : directory channel with
  | none => exact .inl (by simp [handleSubscribe, admitted, there])
  | some store =>
    obtain ⟨count, gap, frames, session', span, opened, rest⟩ := openSpan_spec synced granted echoes store
    refine .inr ⟨count, gap, frames, session', span, ?_, rest⟩
    simp only [handleSubscribe, admitted, there, opened, Option.map_some]

end Brenn.Attach
