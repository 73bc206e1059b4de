import Brenn.Lib.Quoting

/-!
MQTT topic filters and the subscribe ACL that compares them.

Matching and comparing are each one scan over the levels. The scan never grants more than the
allowed filter matches; what it denies is compared with the topics that could be asked for.
-/

namespace Brenn.Access
open Brenn.Lib

/-! ### Levels -/

/-- The levels of a filter or a topic, an empty text being one empty level. -/
def levels (text : String) : List String := (text.toList.splitOn '/').map String.ofList

/-- The text that spells a list of levels. -/
def spelled (parts : List String) : String := String.ofList (['/'].intercalate (parts.map String.toList))

/-- A level a topic may have: within one separator and free of wildcards. -/
def IsName (level : String) : Prop := '/' ∉ level.toList ∧ '#' ∉ level.toList ∧ '+' ∉ level.toList

instance (level : String) : Decidable (IsName level) := inferInstanceAs (Decidable (_ ∧ _))

theorem levels_ne_nil (text : String) : levels text ≠ [] := by
  simp [levels, List.splitOn_ne_nil]

theorem spelled_levels (text : String) : spelled (levels text) = text := by
  unfold spelled levels
  rw [List.map_map]
  have unwrapped : (text.toList.splitOn '/').map (String.toList ∘ String.ofList) = text.toList.splitOn '/' :=
    (List.map_congr_left fun part _ => String.toList_ofList).trans (List.map_id _)
  rw [unwrapped, List.intercalate_splitOn, String.ofList_toList]

theorem levels_spelled {parts : List String} (clean : ∀ level ∈ parts, '/' ∉ level.toList) (some : parts ≠ []) :
    levels (spelled parts) = parts := by
  unfold spelled levels
  rw [String.toList_ofList, List.splitOn_intercalate]
  · rw [List.map_map]
    exact (List.map_congr_left fun part _ => String.ofList_toList).trans (List.map_id _)
  · simpa using clean
  · simpa using some

theorem levels_injective {left right : String} (same : levels left = levels right) : left = right := by
  rw [← spelled_levels left, same, spelled_levels]

theorem separator_not_mem_parts (chars : List Char) : ∀ part ∈ chars.splitOn '/', '/' ∉ part := by
  induction chars with
  | nil => simp
  | cons char chars ih =>
    rw [List.splitOn_cons_eq_if_modifyHead]
    obtain ⟨first, rest, parts⟩ := List.exists_cons_of_ne_nil (List.splitOn_ne_nil '/' chars)
    rw [parts] at ih ⊢
    by_cases separates : char = '/'
    · simpa [separates] using ih
    · simp only [beq_iff_eq, separates, if_false, List.modifyHead_cons, List.mem_cons, forall_eq_or_imp, not_or] at ih ⊢
      exact ⟨⟨Ne.symm separates, ih.1⟩, ih.2⟩

theorem separator_not_mem_levels (text : String) : ∀ level ∈ levels text, '/' ∉ level.toList := by
  intro level member
  obtain ⟨part, listed, rfl⟩ := List.mem_map.mp member
  rw [String.toList_ofList]
  exact separator_not_mem_parts _ part listed

/-! ### Filters -/

/-- Check the levels of a filter in order: a wildcard fills its level, and `#` ends the filter. -/
def validateLevels : List String → Except String Unit
  | [] => .ok ()
  | level :: rest =>
    if '#' ∈ level.toList ∧ level ≠ "#" then
      .error ("wildcard '#' must be a complete segment (got " ++ debugText level ++ ")")
    else if '#' ∈ level.toList ∧ rest ≠ [] then .error "wildcard '#' must be the terminal segment in a topic filter"
    else if '+' ∈ level.toList ∧ level ≠ "+" then
      .error ("wildcard '+' must be a complete segment (got " ++ debugText level ++ ")")
    else validateLevels rest

def validateTopicFilterStr (topic : String) : Except String Unit := validateLevels (levels topic)

def matchesLevels : List String → List String → Bool
  | [], topic => topic.isEmpty
  | level :: rest, topic =>
    if level = "#" then true
    else
      match topic with
      | [] => false
      | name :: names => if level = "+" ∨ level = name then matchesLevels rest names else false

/-- Whether a text's first level is one a leading wildcard does not reach. -/
def startsReserved (text : String) : Bool := text.toList.head? = some '$'

def mqttTopicMatches (filter topic : String) : Bool :=
  if ((levels filter).head? = some "#" ∨ (levels filter).head? = some "+") ∧ startsReserved topic = true then false
  else matchesLevels (levels filter) (levels topic)

def coversLevels : List String → List String → Bool
  | [], requested => requested.isEmpty
  | level :: rest, requested =>
    if level = "#" then true
    else
      match requested with
      | [] => false
      | other :: others =>
        if other = "#" then false
        else if level = "+" then coversLevels rest others
        else if other = "+" ∨ other ≠ level then false
        else coversLevels rest others

def filterCovers (allowed requested : String) : Bool := coversLevels (levels allowed) (levels requested)

/-! ### What an accepted filter looks like -/

def Accepted (parts : List String) : Prop := validateLevels parts = .ok ()

/-- The first level of an accepted filter ends it, stands for one level, or has no wildcard. -/
theorem accepted_cons {level : String} {rest : List String} (accepted : Accepted (level :: rest)) :
    Accepted rest ∧
      (level = "#" ∧ rest = [] ∨ level = "+" ∨ '#' ∉ level.toList ∧ '+' ∉ level.toList) := by
  unfold Accepted validateLevels at accepted
  split at accepted
  · cases accepted
  next whole =>
    split at accepted
    · cases accepted
    next terminal =>
      split at accepted
      · cases accepted
      next single =>
        refine ⟨accepted, ?_⟩
        by_cases hash : '#' ∈ level.toList
        · exact Or.inl ⟨by_contra fun other => whole ⟨hash, other⟩, by_contra fun more => terminal ⟨hash, more⟩⟩
        · by_cases plus : '+' ∈ level.toList
          · exact Or.inr (Or.inl (by_contra fun other => single ⟨plus, other⟩))
          · exact Or.inr (Or.inr ⟨hash, plus⟩)

/-! ### The scan never grants too much -/

theorem matches_of_covers {allowed requested topic : List String} (covers : coversLevels allowed requested = true)
    (matched : matchesLevels requested topic = true) : matchesLevels allowed topic = true := by
  induction allowed generalizing requested topic with
  | nil =>
    cases requested with
    | nil => exact matched
    | cons other others => simp [coversLevels] at covers
  | cons level rest ih =>
    unfold coversLevels at covers
    unfold matchesLevels
    by_cases whole : level = "#"
    · simp [whole]
    · cases requested with
      | nil => simp [whole] at covers
      | cons other others =>
        simp only [whole, if_false] at covers ⊢
        by_cases open_ : other = "#"
        · simp [open_] at covers
        · cases topic with
          | nil => simp [matchesLevels, open_] at matched
          | cons name names =>
            simp only [matchesLevels, open_, if_false] at matched covers
            split at matched
            next fits =>
              by_cases single : level = "+"
              · simp only [single, if_true] at covers
                simpa [single] using ih covers matched
              · simp only [single, if_false] at covers
                split at covers
                · cases covers
                next same =>
                  obtain ⟨notPlus, same⟩ := not_or.mp same
                  have named : level = name := (not_not.mp same).symm.trans (fits.resolve_left notPlus)
                  simpa [named] using ih covers matched
            next => cases matched

theorem covers_refl (parts : List String) : coversLevels parts parts = true := by
  induction parts with
  | nil => rfl
  | cons level rest ih =>
    unfold coversLevels
    by_cases whole : level = "#"
    · simp [whole]
    · by_cases single : level = "+"
      · simp [single, ih]
      · simp [whole, single, ih]

theorem covers_trans {first second third : List String} (left : coversLevels first second = true)
    (right : coversLevels second third = true) : coversLevels first third = true := by
  induction first generalizing second third with
  | nil =>
    cases second with
    | nil => exact right
    | cons other others => simp [coversLevels] at left
  | cons level rest ih =>
    unfold coversLevels at left ⊢
    by_cases whole : level = "#"
    · simp [whole]
    · cases second with
      | nil => simp [whole] at left
      | cons middle middles =>
        simp only [whole, if_false] at left ⊢
        by_cases open_ : middle = "#"
        · simp [open_] at left
        · unfold coversLevels at right
          simp only [open_, if_false] at left right
          cases third with
          | nil => simp at right
          | cons last lasts =>
            simp only at right ⊢
            by_cases ended : last = "#"
            · simp [ended] at right
            · simp only [ended, if_false] at right ⊢
              by_cases single : level = "+"
              · simp only [single, if_true] at left ⊢
                refine ih left ?_
                by_cases middlePlus : middle = "+"
                · simpa [middlePlus] using right
                · simp only [middlePlus, if_false] at right
                  split at right
                  · cases right
                  · exact right
              · simp only [single, if_false] at left ⊢
                split at left
                · cases left
                next same =>
                  obtain ⟨notPlus, same⟩ := not_or.mp same
                  have middleIs : middle = level := not_not.mp same
                  subst middleIs
                  simp only [notPlus, if_false] at right
                  split at right
                  · cases right
                  next agree =>
                    rw [if_neg agree]
                    exact ih left right

/-! ### What the scan denies -/

def otherName (level : String) : String := if level = "a" then "b" else "a"

theorem otherName_ne (level : String) : level ≠ otherName level := by
  unfold otherName
  split
  next same => simp [same]
  next other => exact other

theorem otherName_cases (level : String) : otherName level = "a" ∨ otherName level = "b" := by
  unfold otherName
  split <;> simp

theorem isName_otherName (level : String) : IsName (otherName level) := by
  rcases otherName_cases level with same | same <;> rw [same] <;> decide

/-- The levels of one topic a filter matches. -/
def sample : List String → List String
  | [] => []
  | level :: rest => if level = "#" then [] else (if level = "+" then "a" else level) :: sample rest

theorem matches_sample (parts : List String) : matchesLevels parts (sample parts) = true := by
  induction parts with
  | nil => rfl
  | cons level rest ih =>
    unfold matchesLevels sample
    by_cases whole : level = "#"
    · simp [whole]
    · by_cases single : level = "+" <;> simp [whole, single, ih]

theorem isName_sampled {level : String} {rest : List String} (accepted : Accepted (level :: rest))
    (clean : '/' ∉ level.toList) (open_ : level ≠ "#") : IsName (if level = "+" then "a" else level) := by
  obtain ⟨-, ⟨whole, -⟩ | single | ⟨noHash, noPlus⟩⟩ := accepted_cons accepted
  · exact absurd whole open_
  · rw [if_pos single]
    decide
  · by_cases single : level = "+"
    · rw [if_pos single]
      decide
    · rw [if_neg single]
      exact ⟨clean, noHash, noPlus⟩

theorem isName_sample {parts : List String} (accepted : Accepted parts) (clean : ∀ level ∈ parts, '/' ∉ level.toList) :
    ∀ name ∈ sample parts, IsName name := by
  induction parts with
  | nil => simp [sample]
  | cons level rest ih =>
    obtain ⟨first, others⟩ := List.forall_mem_cons.mp clean
    unfold sample
    split
    · simp
    next open_ =>
      exact List.forall_mem_cons.mpr ⟨isName_sampled accepted first open_, ih (accepted_cons accepted).1 others⟩

theorem matches_cons_sampled {level : String} {rest names : List String} (open_ : level ≠ "#") :
    matchesLevels (level :: rest) ((if level = "+" then "a" else level) :: names) = matchesLevels rest names := by
  rw [matchesLevels, if_neg open_]
  by_cases single : level = "+" <;> simp [single]

theorem misses_cons {level name : String} {rest names : List String} (open_ : level ≠ "#")
    (missed : matchesLevels rest names = false) : matchesLevels (level :: rest) (name :: names) = false := by
  rw [matchesLevels, if_neg open_]
  simp [missed]

/-- Below the first level a denied filter matches something the allowed one does not. -/
theorem escapes_of_not_covers {allowed requested : List String} (accepted : Accepted requested)
    (clean : ∀ level ∈ requested, '/' ∉ level.toList) (denied : coversLevels allowed requested = false) :
    ∃ topic, (∀ name ∈ topic, IsName name) ∧ matchesLevels requested topic = true ∧
      matchesLevels allowed topic = false := by
  induction allowed generalizing requested with
  | nil =>
    cases requested with
    | nil => simp [coversLevels] at denied
    | cons other others =>
      by_cases open_ : other = "#"
      · exact ⟨["a"], by simp; decide, by simp [matchesLevels, open_], rfl⟩
      · refine ⟨sample (other :: others), isName_sample accepted clean, matches_sample _, ?_⟩
        simp [sample, open_, matchesLevels]
  | cons level rest ih =>
    unfold coversLevels at denied
    by_cases whole : level = "#"
    · simp [whole] at denied
    · simp only [whole, if_false] at denied
      cases requested with
      | nil => exact ⟨[], by simp, rfl, by simp [matchesLevels, whole]⟩
      | cons other others =>
        simp only at denied
        by_cases open_ : other = "#"
        · exact ⟨[], by simp, by simp [matchesLevels, open_], by simp [matchesLevels, whole]⟩
        · obtain ⟨first, cleaner⟩ := List.forall_mem_cons.mp clean
          have tailAccepted := (accepted_cons accepted).1
          have named := isName_sampled accepted first open_
          simp only [open_, if_false] at denied
          -- a topic that escapes the rest escapes the whole, read behind the same first level
          have deeper : coversLevels rest others = false →
              ∃ topic, (∀ name ∈ topic, IsName name) ∧ matchesLevels (other :: others) topic = true ∧
                matchesLevels (level :: rest) topic = false := by
            intro denied
            obtain ⟨topic, names, matched, escapes⟩ := ih tailAccepted cleaner denied
            refine ⟨(if other = "+" then "a" else other) :: topic, List.forall_mem_cons.mpr ⟨named, names⟩, ?_, ?_⟩
            · rw [matches_cons_sampled open_]
              exact matched
            · exact misses_cons whole escapes
          by_cases single : level = "+"
          · rw [if_pos single] at denied
            exact deeper denied
          · rw [if_neg single] at denied
            split at denied
            next differs =>
              have names := isName_sample tailAccepted cleaner
              by_cases plus : other = "+"
              · refine ⟨otherName level :: sample others, List.forall_mem_cons.mpr ⟨isName_otherName _, names⟩, ?_, ?_⟩
                · simp [matchesLevels, plus, matches_sample]
                · simp [matchesLevels, whole, single, otherName_ne]
              · rw [if_neg plus] at named
                refine ⟨other :: sample others, List.forall_mem_cons.mpr ⟨named, names⟩, ?_, ?_⟩
                · simp [matchesLevels, open_, matches_sample]
                · have distinct : level ≠ other := Ne.symm (differs.resolve_left plus)
                  simp [matchesLevels, whole, single, distinct]
            next => exact deeper denied

/-- A filter that does not cover everything misses some topic of at least one level, unless it only
    asks for that one level. -/
theorem escapes_of_not_everything {allowed : List String} (accepted : Accepted allowed)
    (denied : coversLevels allowed ["#"] = false) (asksMore : allowed ≠ ["+", "#"]) :
    ∃ name names, (name = "a" ∨ name = "b") ∧ (∀ level ∈ name :: names, IsName level) ∧
      matchesLevels allowed (name :: names) = false := by
  have aName : IsName "a" := by decide
  cases allowed with
  | nil => exact ⟨"a", [], Or.inl rfl, by simpa using aName, rfl⟩
  | cons level rest =>
    by_cases whole : level = "#"
    · simp [coversLevels, whole] at denied
    · by_cases single : level = "+"
      · subst single
        cases rest with
        | nil =>
          have bName : IsName "b" := by decide
          exact ⟨"a", ["b"], Or.inl rfl, by simpa using ⟨aName, bName⟩, by simp [matchesLevels]⟩
        | cons second others =>
          by_cases ends : second = "#"
          · obtain ⟨-, ⟨-, last⟩ | plus | ⟨noHash, -⟩⟩ := accepted_cons (accepted_cons accepted).1
            · exact absurd (by rw [ends, last]) asksMore
            · rw [ends] at plus
              exact absurd plus (by decide)
            · rw [ends] at noHash
              exact absurd noHash (by decide)
          · exact ⟨"a", [], Or.inl rfl, by simpa using aName, by simp [matchesLevels, ends]⟩
      · refine ⟨otherName level, [], otherName_cases level, by simpa using isName_otherName level, ?_⟩
        simp [matchesLevels, whole, single, otherName_ne]

/-! ### Topics -/

/-- A topic name: some text, no wildcard, and no reserved first level. -/
structure IsTopic (topic : String) : Prop where
  nonempty : topic ≠ ""
  plain : '#' ∉ topic.toList ∧ '+' ∉ topic.toList
  ordinary : startsReserved topic = false

/-- Every topic the requested filter matches is matched by the allowed one. -/
def Contains (allowed requested : String) : Prop :=
  ∀ topic, IsTopic topic → mqttTopicMatches requested topic = true → mqttTopicMatches allowed topic = true

/-- The requests whose `#` reaches below a parent that is no topic, against the same filter with one
    level asked for there. -/
def AsksBelowNoTopic (allowed requested : String) : Prop :=
  requested = "#" ∧ allowed = "+/#" ∨ requested = "/#" ∧ (allowed = "/+/#" ∨ allowed = "+/+/#")

instance (allowed requested : String) : Decidable (AsksBelowNoTopic allowed requested) :=
  inferInstanceAs (Decidable (_ ∨ _))

theorem mqttTopicMatches_ordinary {filter topic : String} (ordinary : startsReserved topic = false) :
    mqttTopicMatches filter topic = matchesLevels (levels filter) (levels topic) := by
  simp [mqttTopicMatches, ordinary]

theorem toList_spelled_cons_cons (first second : String) (rest : List String) :
    (spelled (first :: second :: rest)).toList = first.toList ++ '/' :: (spelled (second :: rest)).toList := by
  simp [spelled, List.intercalate]

theorem toList_spelled_singleton (only : String) : (spelled [only]).toList = only.toList := by
  simp [spelled, List.intercalate]

theorem startsReserved_spelled (first : String) (rest : List String) :
    startsReserved (spelled (first :: rest)) = startsReserved first := by
  unfold startsReserved
  cases rest with
  | nil => rw [toList_spelled_singleton]
  | cons second rest =>
    rw [toList_spelled_cons_cons]
    cases first.toList <;> simp

theorem mem_spelled {char : Char} {parts : List String} (listed : char ∈ (spelled parts).toList) :
    char = '/' ∨ ∃ level ∈ parts, char ∈ level.toList := by
  induction parts with
  | nil => simp [spelled, List.intercalate] at listed
  | cons first rest ih =>
    cases rest with
    | nil =>
      rw [toList_spelled_singleton] at listed
      exact Or.inr ⟨first, List.mem_cons_self, listed⟩
    | cons second rest =>
      rw [toList_spelled_cons_cons] at listed
      rcases List.mem_append.mp listed with early | late
      · exact Or.inr ⟨first, List.mem_cons_self, early⟩
      · rcases List.mem_cons.mp late with separator | later
        · exact Or.inl separator
        · rcases ih later with separator | ⟨level, member, there⟩
          · exact Or.inl separator
          · exact Or.inr ⟨level, List.mem_cons_of_mem _ member, there⟩

theorem exists_topic {name : String} {names : List String} (each : ∀ level ∈ name :: names, IsName level)
    (ordinary : startsReserved name = false) (nonempty : name ≠ "" ∨ names ≠ []) :
    ∃ topic, IsTopic topic ∧ levels topic = name :: names := by
  have split : levels (spelled (name :: names)) = name :: names :=
    levels_spelled (fun level member => (each level member).1) (List.cons_ne_nil _ _)
  refine ⟨spelled (name :: names), ⟨?_, ⟨?_, ?_⟩, ?_⟩, split⟩
  · intro empty
    have alone : name :: names = [""] := by
      rw [← split, empty]
      rfl
    rcases nonempty with full | more
    · exact full (List.cons_eq_cons.mp alone).1
    · exact more (List.cons_eq_cons.mp alone).2
  · intro hash
    obtain separator | ⟨level, member, there⟩ := mem_spelled hash
    · exact absurd separator (by decide)
    · exact (each level member).2.1 there
  · intro plus
    obtain separator | ⟨level, member, there⟩ := mem_spelled plus
    · exact absurd separator (by decide)
    · exact (each level member).2.2 there
  · rw [startsReserved_spelled]
    exact ordinary

/-- The first level of a sampled topic is ordinary if its filter's is. -/
theorem startsReserved_sampled {level : String} (ordinary : startsReserved level = false) :
    startsReserved (if level = "+" then "a" else level) = false := by
  split
  · decide
  · exact ordinary

/-- A request that is denied, and asks for more than the one level below no topic, matches a topic
    the allowed filter does not. -/
theorem escapes_at_top {allowed requested : String} (allowedAccepted : Accepted (levels allowed))
    (requestedAccepted : Accepted (levels requested)) (some : requested ≠ "")
    (ordinary : startsReserved requested = false) (denied : filterCovers allowed requested = false)
    (asksMore : ¬ AsksBelowNoTopic allowed requested) :
    ∃ name names, (∀ level ∈ name :: names, IsName level) ∧ startsReserved name = false ∧ (name ≠ "" ∨ names ≠ []) ∧
      matchesLevels (levels requested) (name :: names) = true ∧ matchesLevels (levels allowed) (name :: names) = false := by
  have aName : IsName "a" := by decide
  have cleanRequested := separator_not_mem_levels requested
  have byLevels : ∀ {left right : String} {parts : List String}, levels left = parts → levels right = parts →
      left = right := fun one two => levels_injective (one.trans two.symm)
  unfold filterCovers at denied
  obtain ⟨level, rest, allowedIs⟩ := List.exists_cons_of_ne_nil (levels_ne_nil allowed)
  obtain ⟨other, others, requestedIs⟩ := List.exists_cons_of_ne_nil (levels_ne_nil requested)
  have otherOrdinary : startsReserved other = false := by
    rwa [← spelled_levels requested, requestedIs, startsReserved_spelled] at ordinary
  rw [allowedIs] at allowedAccepted denied ⊢
  rw [requestedIs] at requestedAccepted cleanRequested denied ⊢
  obtain ⟨first, cleaner⟩ := List.forall_mem_cons.mp cleanRequested
  have tailAccepted := (accepted_cons requestedAccepted).1
  by_cases open_ : other = "#"
  · -- the request is for everything
    subst open_
    have last : others = [] := by
      obtain ⟨-, ⟨-, last⟩ | plus | ⟨noHash, -⟩⟩ := accepted_cons requestedAccepted
      · exact last
      · exact absurd plus (by decide)
      · exact absurd noHash (by decide)
    subst last
    obtain ⟨name, names, known, each, escapes⟩ := escapes_of_not_everything allowedAccepted denied fun same =>
      asksMore (Or.inl ⟨byLevels requestedIs rfl, byLevels (allowedIs.trans same) rfl⟩)
    refine ⟨name, names, each, ?_, ?_, rfl, escapes⟩
    · rcases known with rfl | rfl <;> decide
    · rcases known with rfl | rfl <;> exact Or.inl (by decide)
  · have whole : level ≠ "#" := by
      rintro rfl
      simp [coversLevels] at denied
    have named := isName_sampled requestedAccepted first open_
    have sampledOrdinary := startsReserved_sampled otherOrdinary
    unfold coversLevels at denied
    simp only [whole, open_, if_false] at denied
    -- the levels below the first, with a first level that both filters match
    have deeper : coversLevels rest others = false → (level = "+" ∨ level = other) →
        ∃ name names, (∀ level ∈ name :: names, IsName level) ∧ startsReserved name = false ∧ (name ≠ "" ∨ names ≠ []) ∧
          matchesLevels (other :: others) (name :: names) = true ∧ matchesLevels (level :: rest) (name :: names) = false := by
      intro below alike
      have behind : ∀ names, (∀ name ∈ names, IsName name) → matchesLevels others names = true →
          matchesLevels rest names = false →
          (if other = "+" then "a" else other) ≠ "" ∨ names ≠ [] →
          ∃ name names, (∀ level ∈ name :: names, IsName level) ∧ startsReserved name = false ∧
            (name ≠ "" ∨ names ≠ []) ∧ matchesLevels (other :: others) (name :: names) = true ∧
            matchesLevels (level :: rest) (name :: names) = false := by
        intro names each matched escapes full
        refine ⟨_, names, List.forall_mem_cons.mpr ⟨named, each⟩, sampledOrdinary, full, ?_, ?_⟩
        · rw [matches_cons_sampled open_]
          exact matched
        · exact misses_cons whole escapes
      obtain ⟨topic, each, matched, escapes⟩ := escapes_of_not_covers tailAccepted cleaner below
      by_cases full : (if other = "+" then "a" else other) ≠ "" ∨ topic ≠ []
      · exact behind topic each matched escapes full
      · -- the topic found is the empty text, so the request is `/#`
        obtain ⟨empty, none⟩ := not_or.mp full
        have none : topic = [] := not_not.mp none
        subst none
        have otherEmpty : other = "" := by
          by_cases plus : other = "+"
          · simp [plus] at empty
          · simpa [plus] using empty
        subst otherEmpty
        have others_ : others = ["#"] := by
          cases others with
          | nil => exact absurd (byLevels requestedIs rfl) some
          | cons second more =>
            obtain ⟨-, ⟨ends, last⟩ | plus | ⟨noHash, -⟩⟩ := accepted_cons tailAccepted
            · rw [ends, last]
            · simp [matchesLevels, plus] at matched
            · have notEnd : second ≠ "#" := by
                rintro rfl
                exact noHash (by decide)
              simp [matchesLevels, notEnd] at matched
        subst others_
        obtain ⟨name, names, -, each, escapes⟩ :=
          escapes_of_not_everything (accepted_cons allowedAccepted).1 below fun same =>
            asksMore (Or.inr ⟨byLevels requestedIs rfl, by
              rw [same] at allowedIs
              rcases alike with plus | empty
              · exact Or.inr (levels_injective (by rw [allowedIs, plus]; rfl))
              · exact Or.inl (levels_injective (by rw [allowedIs, empty]; rfl))⟩)
        exact behind (name :: names) each rfl escapes (Or.inr (List.cons_ne_nil _ _))
    by_cases single : level = "+"
    · rw [if_pos single] at denied
      exact deeper denied (Or.inl single)
    · rw [if_neg single] at denied
      split at denied
      next differs =>
        have names := isName_sample tailAccepted cleaner
        by_cases plus : other = "+"
        · refine ⟨otherName level, sample others, List.forall_mem_cons.mpr ⟨isName_otherName _, names⟩, ?_, ?_, ?_, ?_⟩
          · rcases otherName_cases level with same | same <;> rw [same] <;> decide
          · rcases otherName_cases level with same | same <;> rw [same] <;> exact Or.inl (by decide)
          · simp [matchesLevels, plus, matches_sample]
          · simp [matchesLevels, whole, single, otherName_ne]
        · have distinct : level ≠ other := Ne.symm (differs.resolve_left plus)
          rw [if_neg plus] at named sampledOrdinary
          have missed : ∀ names, matchesLevels (level :: rest) (other :: names) = false := by
            intro names
            simp [matchesLevels, whole, single, distinct]
          by_cases full : other ≠ "" ∨ sample others ≠ []
          · refine ⟨other, sample others, List.forall_mem_cons.mpr ⟨named, names⟩, sampledOrdinary, full, ?_, missed _⟩
            simp [matchesLevels, open_, matches_sample]
          · -- a sample of the empty text: lengthen it by what the final `#` takes in
            obtain ⟨empty, none⟩ := not_or.mp full
            have ends : ∃ more, others = "#" :: more := by
              cases others with
              | nil => exact absurd (levels_injective (by rw [requestedIs, not_not.mp empty]; rfl)) some
              | cons second more =>
                by_cases ends : second = "#"
                · exact ⟨more, by rw [ends]⟩
                · simp [sample, ends] at none
            obtain ⟨more, rfl⟩ := ends
            refine ⟨other, ["a"], by simpa using ⟨named, aName⟩, sampledOrdinary, Or.inr (by simp), ?_, missed _⟩
            simp [matchesLevels, open_]
      next alike =>
        obtain ⟨-, same⟩ := not_or.mp alike
        exact deeper denied (Or.inr (not_not.mp same).symm)

/-! ### The policy -/

inductive AppCapability where
  | dynamicSubscribe
  | mqttSubscribe
  deriving Repr, DecidableEq

/-- One allowed filter of a client, validated when the policy was resolved. -/
structure MqttSubMatcher where
  client : String
  topicFilter : String
  valid : validateTopicFilterStr topicFilter = .ok ()

structure AppPolicy where
  grants : List AppCapability
  mqttSubscribe : List MqttSubMatcher

namespace AppPolicy

variable (policy : AppPolicy)

def mqttAclCovers (client requestedFilter : String) : Bool :=
  policy.mqttSubscribe.any fun m => m.client = client && filterCovers m.topicFilter requestedFilter

def allowsMqttDynamicSubscribe (client requestedFilter : String) : Bool :=
  policy.grants.contains .dynamicSubscribe && policy.grants.contains .mqttSubscribe &&
    policy.mqttAclCovers client requestedFilter

def allowsMqttDelivery (client topic : String) : Bool :=
  policy.grants.contains .mqttSubscribe && policy.mqttAclCovers client topic

/-- The topics a policy's filters for a client let through. -/
def Allows (client topic : String) : Prop :=
  ∃ m ∈ policy.mqttSubscribe, m.client = client ∧ mqttTopicMatches m.topicFilter topic = true

end AppPolicy

theorem contains_of_covers {allowed requested : String} (covers : filterCovers allowed requested = true) :
    Contains allowed requested := by
  intro topic isTopic matched
  rw [mqttTopicMatches_ordinary isTopic.ordinary] at matched ⊢
  exact matches_of_covers covers matched

theorem AppPolicy.allows_of_covers {policy : AppPolicy} {client filter topic : String}
    (covers : policy.mqttAclCovers client filter = true) (isTopic : IsTopic topic)
    (matched : mqttTopicMatches filter topic = true) : policy.Allows client topic := by
  obtain ⟨m, member, both⟩ := List.any_eq_true.mp covers
  obtain ⟨mine, covers⟩ := Bool.and_eq_true_iff.mp both
  exact ⟨m, member, of_decide_eq_true mine, contains_of_covers covers topic isTopic matched⟩

/-- Below no topic, asking for one more level loses nothing. -/
theorem contains_below_no_topic {allowed requested : String} (below : AsksBelowNoTopic allowed requested) :
    Contains allowed requested := by
  intro topic isTopic matched
  rw [mqttTopicMatches_ordinary isTopic.ordinary] at matched ⊢
  obtain ⟨name, names, topicIs⟩ := List.exists_cons_of_ne_nil (levels_ne_nil topic)
  rw [topicIs] at matched ⊢
  rcases below with ⟨-, rfl⟩ | ⟨rfl, rest⟩
  · rfl
  · have requestedIs : levels "/#" = ["", "#"] := rfl
    have empty : name = "" := by
      rw [requestedIs] at matched
      by_contra full
      simp [matchesLevels, Ne.symm full] at matched
    subst empty
    cases names with
    | nil => exact absurd (levels_injective (topicIs.trans rfl)) isTopic.nonempty
    | cons second more => rcases rest with rfl | rfl <;> rfl

theorem contains_iff {allowed requested : String} (allowedValid : validateTopicFilterStr allowed = .ok ())
    (requestedValid : validateTopicFilterStr requested = .ok ()) (some : requested ≠ "")
    (ordinary : startsReserved requested = false) :
    Contains allowed requested ↔ filterCovers allowed requested = true ∨ AsksBelowNoTopic allowed requested := by
  constructor
  · intro contains
    by_contra neither
    obtain ⟨denied, asksMore⟩ := not_or.mp neither
    obtain ⟨name, names, each, nameOrdinary, nonempty, matched, escapes⟩ :=
      escapes_at_top allowedValid requestedValid some ordinary (Bool.eq_false_iff.mpr denied) asksMore
    obtain ⟨topic, isTopic, split⟩ := exists_topic each nameOrdinary nonempty
    have reached := contains topic isTopic (by
      rw [mqttTopicMatches_ordinary isTopic.ordinary, split]
      exact matched)
    rw [mqttTopicMatches_ordinary isTopic.ordinary, split, escapes] at reached
    exact Bool.noConfusion reached
  · rintro (covers | below)
    · exact contains_of_covers covers
    · exact contains_below_no_topic below

/-- A request that can match a topic is covered exactly when it is contained, apart from the requests
    that reach below no topic; being covered is reflexive and transitive, and what a policy admits
    or delivers stays within its filters. -/
theorem filter_covers_decides_containment (allowed requested : String)
    (allowedValid : validateTopicFilterStr allowed = .ok ()) (requestedValid : validateTopicFilterStr requested = .ok ()) :
    (filterCovers allowed requested = true → Contains allowed requested) ∧
      (requested ≠ "" → startsReserved requested = false → ¬ AsksBelowNoTopic allowed requested →
        (filterCovers allowed requested = true ↔ Contains allowed requested)) ∧
      filterCovers allowed allowed = true ∧
      (∀ narrower, filterCovers allowed requested = true → filterCovers requested narrower = true →
        filterCovers allowed narrower = true) ∧
      ∀ (policy : AppPolicy) (client topic : String), IsTopic topic → mqttTopicMatches requested topic = true →
        (policy.allowsMqttDynamicSubscribe client requested = true → policy.Allows client topic) ∧
          (policy.allowsMqttDelivery client requested = true → policy.Allows client topic) := by
  refine ⟨contains_of_covers, ?_, covers_refl _, fun narrower => covers_trans, ?_⟩
  · intro some ordinary asksMore
    rw [contains_iff allowedValid requestedValid some ordinary]
    exact ⟨Or.inl, fun either => either.resolve_right asksMore⟩
  · intro policy client topic isTopic matched
    refine ⟨fun admitted => ?_, fun delivered => ?_⟩
    · exact AppPolicy.allows_of_covers (Bool.and_eq_true_iff.mp admitted).2 isTopic matched
    · exact AppPolicy.allows_of_covers (Bool.and_eq_true_iff.mp delivered).2 isTopic matched

/-- An app that may read every sensor may read the kitchen's. -/
theorem sensors_cover_kitchen : Contains "sensors/#" "sensors/kitchen/+" :=
  ((filter_covers_decides_containment "sensors/#" "sensors/kitchen/+" (by decide) (by decide)).2.1 (by decide)
    (by decide) (by decide)).mp (by decide)

/-- Three contained requests are denied, as is a request that matches no topic at all. -/
theorem contained_requests_denied :
    (Contains "+/#" "#" ∧ filterCovers "+/#" "#" = false) ∧ (Contains "/+/#" "/#" ∧ filterCovers "/+/#" "/#" = false) ∧
      (Contains "+/+/#" "/#" ∧ filterCovers "+/+/#" "/#" = false) ∧
      (Contains "a" "$SYS/load" ∧ filterCovers "a" "$SYS/load" = false) ∧ Contains "a" "" ∧ filterCovers "a" "" = false := by
  refine ⟨⟨contains_below_no_topic (Or.inl ⟨rfl, rfl⟩), by decide⟩,
    ⟨contains_below_no_topic (Or.inr ⟨rfl, Or.inl rfl⟩), by decide⟩,
    ⟨contains_below_no_topic (Or.inr ⟨rfl, Or.inr rfl⟩), by decide⟩, ⟨?_, by decide⟩, ?_, by decide⟩
  · intro topic isTopic matched
    rw [mqttTopicMatches_ordinary isTopic.ordinary] at matched
    have requestedIs : levels "$SYS/load" = ["$SYS", "load"] := rfl
    obtain ⟨name, names, topicIs⟩ := List.exists_cons_of_ne_nil (levels_ne_nil topic)
    rw [requestedIs, topicIs] at matched
    have reserved : name = "$SYS" := by
      by_contra other
      simp [matchesLevels, Ne.symm other] at matched
    have ordinary := isTopic.ordinary
    rw [← spelled_levels topic, topicIs, startsReserved_spelled, reserved] at ordinary
    exact absurd ordinary (by decide)
  · intro topic isTopic matched
    rw [mqttTopicMatches_ordinary isTopic.ordinary] at matched
    have requestedIs : levels "" = [""] := rfl
    obtain ⟨name, names, topicIs⟩ := List.exists_cons_of_ne_nil (levels_ne_nil topic)
    rw [requestedIs, topicIs] at matched
    have alone : name = "" ∧ names = [] := by
      by_cases empty : name = ""
      · exact ⟨empty, by simpa [matchesLevels, empty] using matched⟩
      · simp [matchesLevels, Ne.symm empty] at matched
    rw [alone.1, alone.2] at topicIs
    exact absurd (levels_injective (topicIs.trans rfl)) isTopic.nonempty

end Brenn.Access
