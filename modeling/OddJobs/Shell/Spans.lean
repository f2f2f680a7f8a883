import OddJobs.Shell.Layout
import OddJobs.Shell.Soundness

/-!
# The spans of a syntax tree

Which spans a tree should have, and where the parser stands while it builds one.  A node begins
with the token at which its function starts, and ends with a token that has been consumed.
-/

namespace OddJobs.Shell

open Library

/-! ## Nesting -/

namespace Span

def Within (span outer : Span) : Prop := outer.start ≤ span.start ∧ span.stop ≤ outer.stop

def Before (span later : Span) : Prop := span.stop ≤ later.start

theorem merge_eq {span other : Span} (begins : span.start ≤ other.start)
    (ends : span.stop ≤ other.stop) : span.merge other = ⟨span.start, other.stop⟩ := by
  rw [merge, Nat.min_eq_left begins, Nat.max_eq_right ends]

/-- Siblings lie in the span of their parent, one behind the other. -/
structure Holds (outer : Span) (inner : List Span) : Prop where
  within : ∀ span ∈ inner, span.Within outer
  sorted : inner.Pairwise Before

end Span

section Nesting

variable {Commands : Type}

/-- The assignments, the name and the arguments of a command as they stand in the input.  The
empty name of assignments alone stands in front of them. -/
def SimpleCommand.words (command : SimpleCommand Commands) : List Span :=
  if command.name.parts.isEmpty then
    command.name.span :: (command.env.map (·.span) ++ command.args.map (·.span))
  else command.env.map (·.span) ++ command.name.span :: command.args.map (·.span)

def targetSpans (redirections : List (Redirection Commands)) : List Span :=
  redirections.filterMap Redirection.targetSpan

def AndOrList.items (andOr : AndOrList Commands) : List (CommandItem Commands) :=
  andOr.first :: andOr.rest.map (·.2)

variable (input : List Char)

structure EnvAssignment.Nests (assignment : EnvAssignment Commands) : Prop where
  on : assignment.span.On input
  value : assignment.value.span.On input
  within : assignment.value.span.Within assignment.span

structure SimpleCommand.Nests (command : SimpleCommand Commands) : Prop where
  on : command.span.On input
  words : command.span.Holds command.words
  targets : command.span.Holds (targetSpans command.redirections)
  apart : ∀ word ∈ command.words, ∀ target ∈ targetSpans command.redirections,
    word.Before target ∨ target.Before word
  inner : ∀ span ∈ command.words ++ targetSpans command.redirections, span.On input
  env : ∀ assignment ∈ command.env, assignment.Nests input

mutual

inductive CommandNests : Command CommandList → Prop where
  | simple {command : SimpleCommand CommandList} :
      command.Nests input → CommandNests (.simple command)
  | job {commands : List (SimpleCommand CommandList)} {span : Span} :
      span.On input → span.Holds (commands.map (·.span)) →
        (∀ command ∈ commands, command.Nests input) → CommandNests (.job ⟨commands, span⟩)
  | subshell {body : CommandList} {redirections : List (Redirection CommandList)} {span : Span} :
      span.On input → span.Holds (body.span :: targetSpans redirections) →
        (∀ target ∈ targetSpans redirections, target.On input) → ListNests body →
          CommandNests (.subshell ⟨body, redirections, span⟩)
  | braceGroup {body : CommandList} {redirections : List (Redirection CommandList)} {span : Span} :
      span.On input → span.Holds (body.span :: targetSpans redirections) →
        (∀ target ∈ targetSpans redirections, target.On input) → ListNests body →
          CommandNests (.braceGroup ⟨body, redirections, span⟩)

inductive ItemNests : CommandItem CommandList → Prop where
  | mk {item : CommandItem CommandList} :
      item.span.On input → item.command.span.Within item.span → CommandNests item.command →
        ItemNests item

inductive AndOrNests : AndOrList CommandList → Prop where
  | mk {andOr : AndOrList CommandList} :
      andOr.span.On input → andOr.span.Holds (andOr.items.map (·.span)) →
        (∀ item ∈ andOr.items, ItemNests item) → AndOrNests andOr

/-- The spans of a tree nest: each lies in that of its parent and between characters of the
input, and siblings stand one behind the other. -/
inductive ListNests : CommandList → Prop where
  | mk {commands : List (AndOrList CommandList)} {span : Span} :
      span.On input → span.Holds (commands.map (·.span)) →
        (∀ andOr ∈ commands, AndOrNests andOr) → ListNests ⟨commands, span⟩

end

end Nesting

/-! ## Assignments -/

def TokenKind.opensCommand : TokenKind Char → Bool
  | and | or | pipe | semi | ampersand | newline | lParen | lBrace => true
  | _ => false

/-- So many assignments stand between the beginning of a command and what follows; elsewhere
there is no number. -/
def commandState (opens : Bool) : Option Nat := if opens then some 0 else none

/-- Whether each assignment in front of a command is a single token, and assignments alone are
only one. -/
def plainAssignments : Option Nat → List Lexeme → Bool
  | assigned, [] => assigned.getD 0 ≤ 1
  | none, .word _ :: rest => plainAssignments none rest
  | some count, .word run :: rest =>
      if beginsAssignment run then run.length == 1 && plainAssignments (some (count + 1)) rest
      else plainAssignments none rest
  | assigned, .mark token :: rest =>
      decide (assigned.getD 0 ≤ 1) &&
        plainAssignments (commandState token.kind.opensCommand) rest

def PlainAssignments (input : List Char) : Prop :=
  ∃ tokens, tokenize input = .ok tokens ∧ plainAssignments (some 0) (lexemes tokens) = true

/-! ## Positions of the parser -/

def Tokens.reached (tokens : Tokens) : Nat := (tokens.last.map (·.span.stop)).getD 0

/-- The tokens that are left stand one behind the other, behind what has been consumed. -/
structure Tokens.Laid (input : List Char) (tokens : Tokens) : Prop where
  laid : Shell.Laid input (tokens.rest.map ParsedToken.token)
  behind : ∀ token ∈ tokens.rest, tokens.reached ≤ token.span.start
  boundary : Text.Boundary tokens.reached input
  sound : ∀ token ∈ tokens.rest, token.Sound fun _ _ => True

inductive Walks : Tokens → Tokens → Prop where
  | refl (tokens : Tokens) : Walks tokens tokens
  | step {before after : Tokens} {token : ParsedToken} {rest : List ParsedToken} :
      before.rest = token :: rest → Walks before.advance after → Walks before after

section Positions

variable {input : List Char} {before middle after : Tokens} {token : ParsedToken}
  {rest : List ParsedToken}

theorem Tokens.advance_eq (stands : before.rest = token :: rest) :
    before.advance = { before with
      last := some token
      rest := rest } := by
  unfold Tokens.advance
  rw [stands]

theorem Tokens.Laid.placed (laid : before.Laid input) (stands : before.rest = token :: rest) :
    token.token.Placed input := by
  have whole := laid.laid
  rw [stands, List.map_cons, laid_cons] at whole
  exact whole.1

theorem Tokens.Laid.advance (laid : before.Laid input) (stands : before.rest = token :: rest) :
    before.advance.Laid input := by
  obtain ⟨whole, behind, boundary, sound⟩ := laid
  rw [stands, List.map_cons, laid_cons] at whole
  obtain ⟨placed, before_, later⟩ := whole
  rw [stands] at sound
  rw [Tokens.advance_eq stands]
  refine ⟨later, ?_, placed.on.stop,
    fun other member => sound other (List.mem_cons_of_mem token member)⟩
  intro other member
  exact before_ other.token (List.mem_map_of_mem member)

namespace Walks

theorem one (stands : before.rest = token :: rest) : Walks before before.advance :=
  step stands (refl _)

theorem trans (first : Walks before middle) (second : Walks middle after) : Walks before after := by
  induction first with
  | refl => exact second
  | step stands _ ih => exact step stands (ih second)

theorem laid (walks : Walks before after) (laid : before.Laid input) : after.Laid input := by
  induction walks with
  | refl => exact laid
  | step stands _ ih => exact ih (laid.advance stands)

theorem reached_le (walks : Walks before after) (laid : before.Laid input) :
    before.reached ≤ after.reached := by
  induction walks with
  | refl => exact Nat.le_refl _
  | @step before after token rest stands _ ih =>
      have later := ih (laid.advance stands)
      have behind := laid.behind token (by rw [stands]; exact List.mem_cons_self)
      have lt := (laid.placed stands).lt
      rw [Tokens.advance_eq stands] at later
      exact Nat.le_trans behind (Nat.le_trans (Nat.le_of_lt lt) later)

theorem last_isSome (walks : Walks before after) (some : before.last.isSome) :
    after.last.isSome := by
  induction walks with
  | refl => exact some
  | step stands _ ih =>
      rw [Tokens.advance_eq stands] at ih
      exact ih rfl

end Walks

def Tokens.here (tokens : Tokens) : Nat :=
  (tokens.rest.head?.map (·.span.start)).getD tokens.reached

theorem Tokens.here_cons (stands : before.rest = token :: rest) :
    before.here = token.span.start := by
  unfold Tokens.here
  rw [stands]
  rfl

theorem Tokens.Laid.reached_le_here (laid : before.Laid input) : before.reached ≤ before.here := by
  cases stands : before.rest with
  | nil =>
      unfold Tokens.here
      rw [stands]
      exact Nat.le_refl _
  | cons token rest =>
      rw [Tokens.here_cons stands]
      exact laid.behind token (by rw [stands]; exact List.mem_cons_self)

theorem Tokens.Laid.here_boundary (laid : before.Laid input) : Text.Boundary before.here input := by
  cases stands : before.rest with
  | nil =>
      unfold Tokens.here
      rw [stands]
      exact laid.boundary
  | cons token rest =>
      rw [Tokens.here_cons stands]
      exact (laid.placed stands).on.start

namespace Walks

/-- Behind a token the next one does not begin before its end. -/
theorem stop_le (walks : Walks before after) (laid : before.Laid input)
    (stands : before.rest = token :: rest) (moves : before.reached < after.reached) :
    token.span.stop ≤ after.reached := by
  cases walks with
  | refl => exact absurd moves (Nat.lt_irrefl _)
  | step stands' walks =>
      rw [stands] at stands'
      cases stands'
      have reached := walks.reached_le (laid.advance stands)
      rw [Tokens.advance_eq stands] at reached
      exact reached

/-- Where the parser has gone on there was a token. -/
theorem exists_token (walks : Walks before after) (moves : before.reached < after.reached) :
    ∃ token rest, before.rest = token :: rest := by
  cases walks with
  | refl => exact absurd moves (Nat.lt_irrefl _)
  | step stands _ => exact ⟨_, _, stands⟩

theorem here_le (walks : Walks before after) (laid : before.Laid input) :
    before.here ≤ after.here := by
  cases walks with
  | refl => exact Nat.le_refl _
  | step stands walks =>
      have there := laid.advance stands
      have reached := walks.reached_le there
      have lt := (laid.placed stands).lt
      rw [Tokens.advance_eq stands] at reached
      rw [Tokens.here_cons stands]
      exact Nat.le_trans (Nat.le_of_lt lt) (Nat.le_trans reached (walks.laid there).reached_le_here)

end Walks

end Positions

/-! ## Spans in a row -/

/-- Spans between two positions of the input, one behind the other. -/
structure Row (input : List Char) (start stop : Nat) (spans : List Span) : Prop where
  on : ∀ span ∈ spans, span.On input
  lower : ∀ span ∈ spans, start ≤ span.start
  upper : ∀ span ∈ spans, span.stop ≤ stop
  sorted : spans.Pairwise Span.Before

namespace Row

variable {input : List Char} {start start' middle middle' stop stop' : Nat} {span : Span}
  {spans later : List Span}

theorem nil : Row input start stop [] :=
  ⟨fun _ none => absurd none List.not_mem_nil, fun _ none => absurd none List.not_mem_nil,
    fun _ none => absurd none List.not_mem_nil, List.Pairwise.nil⟩

theorem one (on : span.On input) (lower : start ≤ span.start) (upper : span.stop ≤ stop) :
    Row input start stop [span] where
  on := List.forall_mem_singleton.mpr on
  lower := List.forall_mem_singleton.mpr lower
  upper := List.forall_mem_singleton.mpr upper
  sorted := List.pairwise_singleton _ _

theorem mono (row : Row input start stop spans) (lower : start' ≤ start) (upper : stop ≤ stop') :
    Row input start' stop' spans where
  on := row.on
  lower := fun span member => Nat.le_trans lower (row.lower span member)
  upper := fun span member => Nat.le_trans (row.upper span member) upper
  sorted := row.sorted

/-- Two rows one behind the other. -/
theorem append (first : Row input start middle spans) (second : Row input middle' stop later)
    (apart : middle ≤ middle') (lower : start ≤ middle') (upper : middle ≤ stop) :
    Row input start stop (spans ++ later) where
  on := List.forall_mem_append.mpr ⟨first.on, second.on⟩
  lower := List.forall_mem_append.mpr
    ⟨first.lower, fun span member => Nat.le_trans lower (second.lower span member)⟩
  upper := List.forall_mem_append.mpr
    ⟨fun span member => Nat.le_trans (first.upper span member) upper, second.upper⟩
  sorted := by
    rw [List.pairwise_append]
    refine ⟨first.sorted, second.sorted, ?_⟩
    intro former member latter member'
    exact Nat.le_trans (first.upper former member)
      (Nat.le_trans apart (second.lower latter member'))

/-- A row lies in the span from its start to its stop. -/
theorem holds (row : Row input start stop spans) : Span.Holds ⟨start, stop⟩ spans where
  within := fun span member => ⟨row.lower span member, row.upper span member⟩
  sorted := row.sorted

/-- The spans of a row lie in what is merged from the first and the last. -/
theorem merged {first : Span} (row : Row input start stop (first :: spans)) :
    (first.merge (spans.getLast?.getD first)).On input ∧
      (first.merge (spans.getLast?.getD first)).start = first.start ∧
      (first.merge (spans.getLast?.getD first)).stop ≤ stop ∧
      (first.merge (spans.getLast?.getD first)).Holds (first :: spans) := by
  have on := row.on first List.mem_cons_self
  rcases List.eq_nil_or_concat' spans with rfl | ⟨former, last, rfl⟩
  · rw [List.getLast?_nil, Option.getD_none, Span.merge_eq (Nat.le_refl _) (Nat.le_refl _)]
    exact ⟨on, rfl, row.upper first List.mem_cons_self,
      (one on (Nat.le_refl _) (Nat.le_refl _)).holds⟩
  · have member : last ∈ first :: (former ++ [last]) :=
      List.mem_cons_of_mem _ (List.mem_append_right _ List.mem_cons_self)
    have on' := row.on last member
    have sorted := row.sorted
    rw [← List.cons_append, List.pairwise_append] at sorted
    have behind := fun span (member : span ∈ first :: former) =>
      sorted.2.2 span member last List.mem_cons_self
    have apart : first.stop ≤ last.start := behind first List.mem_cons_self
    rw [List.getLast?_concat, Option.getD_some, Span.merge_eq (Nat.le_trans on.le apart)
      (Nat.le_trans apart on'.le)]
    refine ⟨⟨Nat.le_trans on.le (Nat.le_trans apart on'.le), on.start, on'.stop⟩, rfl,
      row.upper last member, ?_, row.sorted⟩
    intro span found
    constructor
    · rcases List.mem_cons.mp found with rfl | later
      · exact Nat.le_refl _
      · have behind := (List.pairwise_cons.mp row.sorted).1 span later
        exact Nat.le_trans on.le behind
    · rw [← List.cons_append] at found
      rcases List.mem_append.mp found with front | only
      · exact Nat.le_trans (behind span front) on'.le
      · cases List.mem_singleton.mp only
        exact Nat.le_refl _

end Row

end OddJobs.Shell
