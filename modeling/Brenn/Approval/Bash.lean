import Mathlib

/-!
The gate that lets tool calls through without asking.

A Bash command is cut at its unquoted operators and each sub-command needs a rule of its
own. The source scans bytes but tests for ASCII only, so reading characters comes to the same.
-/

namespace Brenn.Approval

inductive ApprovalMatch where
  | globalTool
  | configRule (pattern : String)
  | alwaysAllowRule (pattern : String)
  | noMatch

def ApprovalMatch.isApproved : ApprovalMatch → Bool
  | .noMatch => false
  | _ => true

/-! ### The scan -/

inductive State where
  | unquoted
  | singleQuoted
  | doubleQuoted
  deriving DecidableEq

/-- How many characters go with one, the state after them, and whether they are an operator. -/
structure Move where
  more : Nat
  next : State
  cuts : Bool

def pass (more : Nat) (next : State) : Option Move := some ⟨more, next, false⟩

def cut (more : Nat) : Option Move := some ⟨more, .unquoted, true⟩

/-- `next` is the character after `c`, if there is one. `none` gives the command up. -/
def State.move : State → Char → Option Char → Option Move
  | .unquoted, c, next =>
    match c with
    | '\x5c' => if next.isNone then none else pass 1 .unquoted
    | '\x27' => pass 0 .singleQuoted
    | '\x22' => pass 0 .doubleQuoted
    | '\x60' | '(' | ')' => none
    | '$' => if next = some '(' then none else pass 0 .unquoted
    | '<' =>
      if next = some '<' ∨ next = some '(' then none
      else pass (if next = some '&' then 1 else 0) .unquoted
    | '>' =>
      if next = some '(' then none
      else pass (if next = some '&' ∨ next = some '|' then 1 else 0) .unquoted
    | '&' =>
      if next = some '&' then cut 1
      -- a redirection of both streams, which goes on at the angle
      else if next = some '>' then pass 0 .unquoted
      else cut 0
    | '|' => if next = some '|' ∨ next = some '&' then cut 1 else cut 0
    | ';' | '\n' => cut 0
    | _ => pass 0 .unquoted
  | .singleQuoted, c, _ => pass 0 (if c = '\x27' then .unquoted else .singleQuoted)
  | .doubleQuoted, c, next =>
    match c with
    | '\x5c' => if next.isNone then none else pass 1 .doubleQuoted
    | '\x22' => pass 0 .unquoted
    | '\x60' => none
    | '$' => if next = some '(' then none else pass 0 .doubleQuoted
    | _ => pass 0 .doubleQuoted

/-- A command cut up: its first piece, and each operator with the piece after it. -/
structure Pieces where
  first : List Char
  others : List (List Char × List Char)

namespace Pieces

variable (cuts : Bool) (text : List Char) (separator : Char) (pieces : Pieces)

/-- A text in front, as more of the first piece or as the operator before it. -/
def add : Pieces :=
  if cuts then ⟨[], (text, pieces.first) :: pieces.others⟩ else ⟨text ++ pieces.first, pieces.others⟩

def texts : List (List Char) := pieces.first :: pieces.others.map Prod.snd

def command : List Char := pieces.first ++ pieces.others.flatMap fun other => other.1 ++ other.2

def join (later : Pieces) : Pieces := ⟨pieces.first, pieces.others ++ ([separator], later.first) :: later.others⟩

theorem add_command : (pieces.add cuts text).command = text ++ pieces.command := by
  cases cuts <;> simp [add, command]

theorem join_add : (pieces.add cuts text).join separator = add cuts text ∘ pieces.join separator := by
  cases cuts <;> rfl

end Pieces

/-- `none` where the text does not parse. -/
def scan (state : State) (text : List Char) : Option Pieces :=
  match text with
  | [] => if state = .unquoted then some ⟨[], []⟩ else none
  | c :: rest =>
    match state.move c rest.head? with
    | none => none
    | some move => (scan move.next (rest.drop move.more)).map (.add move.cuts (c :: rest.take move.more))
termination_by text.length
decreasing_by simp

variable {state : State} {c separator : Char} {text rest : List Char} {move : Move} {pieces : Pieces}

theorem scan_command (scanned : scan state text = some pieces) : pieces.command = text := by
  fun_induction scan generalizing pieces with
  | case1 => cases scanned; rfl
  | case2 | case3 => cases scanned
  | case4 state c rest move moved ih =>
    obtain ⟨later, found, rfl⟩ := Option.map_eq_some_iff.mp scanned
    rw [Pieces.add_command, ih found, List.cons_append, List.take_append_drop]

theorem move_more (moved : state.move c rest.head? = some move) : move.more ≤ rest.length := by
  revert moved
  cases rest with
  | nil => cases state <;> simp only [State.move] <;> split <;> simp +contextual [pass, cut, eq_comm]
  | cons next rest =>
    cases state <;> simp only [State.move] <;> (repeat' split) <;> simp +contextual [pass, cut, eq_comm]

section Separator

variable (separates : separator = ';' ∨ separator = '\n') (later : List Char)

include separates

/-- Before a separator a text is read as it is at its end. -/
theorem move_before (moved : state.move c rest.head? = some move) :
    state.move c (rest ++ separator :: later).head? = some move := by
  cases rest with
  | cons next rest => exact moved
  | nil =>
    revert moved
    rcases separates with rfl | rfl <;> cases state <;> simp only [State.move] <;> split <;> simp

/-- A text that parses is cut the same in front of a separator, and the scan starts afresh after it. -/
theorem scan_append (scanned : scan state text = some pieces) :
    scan state (text ++ separator :: later) = (scan .unquoted later).map (pieces.join separator) := by
  fun_induction scan generalizing pieces with
  | case1 =>
    cases scanned
    rw [List.nil_append, scan]
    rcases separates with rfl | rfl <;> rfl
  | case2 | case3 => cases scanned
  | case4 state c rest move moved ih =>
    obtain ⟨tail, found, rfl⟩ := Option.map_eq_some_iff.mp scanned
    have inside := move_more moved
    rw [List.cons_append, scan, move_before separates later moved]
    simp only [List.drop_append_of_le_length inside, List.take_append_of_le_length inside, ih found, Option.map_map,
      Pieces.join_add]

end Separator

/-! ### The gate -/

inductive BashSplit where
  | simple (command : List Char)
  | compound (commands : List (List Char))
  | unparseable

/-- A rule with its anchored regular expression, as the texts that one matches. -/
structure CompiledRule where
  toolName : String
  patternSrc : String
  isMatch : List Char → Bool

/-- `text` is what is extracted from the tool's input. -/
def CompiledRule.accepts (toolName : String) (text : List Char) (rule : CompiledRule) : Bool :=
  rule.toolName = toolName && rule.isMatch text

structure ApprovalRuleSet where
  globalTools : List String
  staticRules : List CompiledRule
  dynamicRules : List CompiledRule

variable (white : Char → Bool)

def trim (text : List Char) : List Char := ((text.dropWhile white).reverse.dropWhile white).reverse

def Pieces.subcommands (pieces : Pieces) : List (List Char) :=
  (pieces.texts.map (trim white)).filter fun text => !text.isEmpty

def splitBashCommand (command : List Char) : BashSplit :=
  match scan .unquoted command with
  | none => .unparseable
  | some pieces =>
    if pieces.others = [] then .simple (trim white command)
    else
      match pieces.subcommands white with
      | [] => .unparseable
      | [only] => .simple only
      | commands => .compound commands

namespace ApprovalRuleSet

variable (rules : ApprovalRuleSet) (toolName : String) (command : Option (List Char)) (serialized : List Char)

def checkSingle (text : List Char) : ApprovalMatch :=
  match rules.staticRules.find? (CompiledRule.accepts toolName text) with
  | some rule => .configRule rule.patternSrc
  | none =>
    match rules.dynamicRules.find? (CompiledRule.accepts toolName text) with
    | some rule => .alwaysAllowRule rule.patternSrc
    | none => .noMatch

/-- The input is its `command` text, if it has one, and its serialization. -/
def check : ApprovalMatch :=
  if toolName ∈ rules.globalTools then .globalTool
  else
    match if toolName = "Bash" then command else none with
    | none => rules.checkSingle toolName serialized
    | some command =>
      match splitBashCommand white command with
      | .simple command => rules.checkSingle toolName command
      | .compound commands =>
        let found := commands.map (rules.checkSingle toolName)
        if found.all ApprovalMatch.isApproved then found.headD .noMatch else .noMatch
      | .unparseable => .noMatch

def matchesTool : Bool := (rules.check white toolName command serialized).isApproved

end ApprovalRuleSet

section Bash

variable {white} {rules : ApprovalRuleSet} (asked : "Bash" ∉ rules.globalTools) {command : List Char}
  (serialized : List Char)

include asked

/-- What is cut at operators goes through together or not at all. -/
theorem matches_pieces (scanned : scan .unquoted command = some pieces) (some' : pieces.subcommands white ≠ []) :
    rules.matchesTool white "Bash" (some command) serialized ↔
      ∀ text ∈ pieces.subcommands white, (rules.checkSingle "Bash" text).isApproved := by
  simp only [ApprovalRuleSet.matchesTool, ApprovalRuleSet.check, if_neg asked, if_true, splitBashCommand, scanned]
  by_cases whole : pieces.others = []
  · have first : pieces.first = command := by simpa [Pieces.command, whole] using scan_command scanned
    have only : pieces.subcommands white = [trim white command] := by
      simp_all [Pieces.subcommands, Pieces.texts, List.filter_cons]
    simp [whole, only]
  · rw [if_neg whole]
    match pieces.subcommands white, some' with
    | [only], _ => simp
    | first :: second :: more, _ =>
      simp only [List.map_cons, List.headD_cons]
      split <;> simp_all [ApprovalMatch.isApproved]

def runs (white : Char → Bool) (command : List Char) : Bool :=
  (scan .unquoted command).any fun pieces => pieces.subcommands white ≠ []

/-- Commands, each with the separator before it. -/
def script (first : List Char) : List (Char × List Char) → List Char
  | [] => first
  | line :: rest => first ++ line.1 :: script line.2 rest

/-- A script goes through exactly when each of its commands would alone. -/
theorem script_approved_iff {first : List Char} {rest : List (Char × List Char)}
    (separates : ∀ line ∈ rest, line.1 = ';' ∨ line.1 = '\n')
    (run : ∀ text ∈ first :: rest.map Prod.snd, runs white text) :
    runs white (script first rest) ∧ (rules.matchesTool white "Bash" (some (script first rest)) serialized ↔
      ∀ text ∈ first :: rest.map Prod.snd, rules.matchesTool white "Bash" (some text) serialized) := by
  induction rest generalizing first with
  | nil => simpa [script] using run
  | cons line rest ih =>
    obtain ⟨separated, others⟩ := List.forall_mem_cons.mp separates
    obtain ⟨starts, later⟩ := List.forall_mem_cons.mp run
    obtain ⟨follows, approved⟩ := ih others later
    obtain ⟨pieces, scanned, some'⟩ := (Option.any_eq_true _ _).mp starts
    obtain ⟨tail, alsoScanned, alsoSome⟩ := (Option.any_eq_true _ _).mp follows
    have joined : scan .unquoted (script first (line :: rest)) = some (pieces.join line.1 tail) := by
      rw [script, scan_append separated _ scanned, alsoScanned, Option.map_some]
    have both : (pieces.join line.1 tail).subcommands white = pieces.subcommands white ++ tail.subcommands white := by
      simp only [Pieces.subcommands, Pieces.texts, Pieces.join, List.map_append, List.map_cons, ← List.filter_append,
        List.cons_append]
    have nonempty : (pieces.join line.1 tail).subcommands white ≠ [] := by simp [both, of_decide_eq_true some']
    refine ⟨by simpa [runs, joined] using nonempty, ?_⟩
    rw [matches_pieces asked serialized joined nonempty, both, List.forall_mem_append,
      ← matches_pieces asked serialized scanned (of_decide_eq_true some'),
      ← matches_pieces asked serialized alsoScanned (of_decide_eq_true alsoSome), approved]
    simp only [List.map_cons, List.forall_mem_cons]

end Bash

/-- Lets `ls` through. -/
def listing : ApprovalRuleSet := ⟨[], [⟨"Bash", "ls", fun text => text = "ls".toList⟩], []⟩

theorem listings_approved : listing.matchesTool Char.isWhitespace "Bash" (some "ls\nls".toList) [] :=
  (@script_approved_iff Char.isWhitespace listing (by decide) [] "ls".toList [('\n', "ls".toList)] (by simp)
    (by decide +kernel)).2.mpr (by decide +kernel)

end Brenn.Approval
