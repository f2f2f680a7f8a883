import OddJobs.Shell.Parser

/-!
# The grammar of the shell

The tokens are grouped into lexemes: a run of adjacent tokens of a word is one, and so is
every other token.  Each production says of which lexemes a tree is made, from left to
right.  The spans of the trees are left open.
-/

namespace OddJobs.Shell

/-! ## Lexemes -/

inductive Lexeme where
  /-- Adjacent tokens of a word, as many as there are. -/
  | word (run : List (Token Char))
  | mark (token : Token Char)
  deriving DecidableEq, Repr

def adjacentRun (stop : Nat) : List (Token Char) → List (Token Char) × List (Token Char)
  | [] => ([], [])
  | token :: rest =>
      if token.kind.isWordPart ∧ token.span.start = stop then
        (token :: (adjacentRun token.span.stop rest).1, (adjacentRun token.span.stop rest).2)
      else ([], token :: rest)

theorem adjacentRun_append (stop : Nat) (tokens : List (Token Char)) :
    (adjacentRun stop tokens).1 ++ (adjacentRun stop tokens).2 = tokens := by
  induction tokens generalizing stop with
  | nil => rfl
  | cons token rest ih =>
      rw [adjacentRun]
      split
      · exact congrArg (token :: ·) (ih token.span.stop)
      · rfl

theorem adjacentRun_length (stop : Nat) (tokens : List (Token Char)) :
    (adjacentRun stop tokens).2.length ≤ tokens.length := by
  have counted := congrArg List.length (adjacentRun_append stop tokens)
  rw [List.length_append] at counted
  omega

def lexemes (tokens : List (Token Char)) : List Lexeme :=
  match tokens with
  | [] => []
  | token :: rest =>
      if token.kind.isWordPart then
        .word (token :: (adjacentRun token.span.stop rest).1) ::
          lexemes (adjacentRun token.span.stop rest).2
      else .mark token :: lexemes rest
termination_by tokens.length
decreasing_by
  · exact Nat.lt_succ_of_le (adjacentRun_length token.span.stop rest)
  · exact Nat.lt_succ_self _

def Lexeme.tokens : Lexeme → List (Token Char)
  | word run => run
  | mark token => [token]

/-- Grouping loses no token and keeps their order. -/
theorem flatMap_lexemes (tokens : List (Token Char)) :
    (lexemes tokens).flatMap Lexeme.tokens = tokens := by
  fun_induction lexemes tokens with
  | case1 => rfl
  | case2 token rest isPart ih =>
      rw [List.flatMap_cons, ih]
      exact congrArg (token :: ·) (adjacentRun_append token.span.stop rest)
  | case3 token rest other ih => rw [List.flatMap_cons, ih, Lexeme.tokens, List.singleton_append]

/-! ## Assignments -/

def TokenKind.assignment : TokenKind Char → Option (List Char × List Char)
  | word text => tryParseAssignmentWord text
  | _ => none

/-! ## Productions -/

section Productions

-- Which trees the texts of substitutions stand for.
variable (Body : List Char → CommandList → Prop)

inductive PartOf : WordPart Char (List Char) → WordPart Char CommandList → Prop where
  | literal (value : List Char) (quoted : QuoteStyle) :
      PartOf (.literal value quoted) (.literal value quoted)
  | var (name : List Char) (modifier : Option (List Char)) :
      PartOf (.var name modifier) (.var name modifier)
  | commandSubstitution {content : List Char} {body : CommandList} (backtick : Bool) :
      Body content body → PartOf (.commandSubstitution content backtick)
        (.commandSubstitution body backtick)

inductive PartsOf : TokenKind Char → List (WordPart Char CommandList) → Prop where
  | word (word : List Char) : PartsOf (.word word) [.literal word .unquoted]
  | singleQuoted (content : List Char) : PartsOf (.singleQuoted content) [.literal content .single]
  | emptyQuoted : PartsOf (.doubleQuoted []) [.literal [] .double]
  | doubleQuoted {parts : List (WordPart Char (List Char))}
      {resolved : List (WordPart Char CommandList)} :
      parts ≠ [] → List.Forall₂ (PartOf Body) parts resolved →
        PartsOf (.doubleQuoted parts) resolved
  | var (name : List Char) (modifier : Option (List Char)) :
      PartsOf (.var name modifier) [.var name modifier]
  | commandSubstitution {content : List Char} {body : CommandList} (backtick : Bool) :
      Body content body → PartsOf (.commandSubstitution content backtick)
        [.commandSubstitution body backtick]

/-- The parts that adjacent tokens bring to a word, one token after the other. -/
inductive RunOf : List (Token Char) → List (WordPart Char CommandList) → Prop where
  | nil : RunOf [] []
  | cons {token : Token Char} {run : List (Token Char)}
      {parts later : List (WordPart Char CommandList)} :
      PartsOf Body token.kind parts → RunOf run later → RunOf (token :: run) (parts ++ later)

/-- `NAME=` and the value that is adjacent to it. -/
inductive AssignmentOf : List (Token Char) → EnvAssignment CommandList → Prop where
  | mk {token : Token Char} {run : List (Token Char)} {name value : List Char}
      {parts : List (WordPart Char CommandList)} {valueSpan span : Span} :
      token.kind.assignment = some (name, value) → RunOf Body run parts →
        AssignmentOf (token :: run)
          ⟨name, ⟨valueParts (valueLiteral value ++ parts), valueSpan⟩, span⟩

inductive EnvOf : List Lexeme → List (EnvAssignment CommandList) → Prop where
  | nil : EnvOf [] []
  | cons {run : List (Token Char)} {later : List Lexeme}
      {assignment : EnvAssignment CommandList} {env : List (EnvAssignment CommandList)} :
      AssignmentOf Body run assignment → EnvOf later env →
        EnvOf (.word run :: later) (assignment :: env)

inductive RedirectionOf : List Lexeme → Redirection CommandList → Prop where
  | output {fd : Option Nat} {run : List (Token Char)} {target : Word CommandList} {span : Span} :
      RunOf Body run target.parts →
        RedirectionOf [.mark ⟨.redirectOut fd, span⟩, .word run] (.output fd target false)
  | append {fd : Option Nat} {run : List (Token Char)} {target : Word CommandList} {span : Span} :
      RunOf Body run target.parts →
        RedirectionOf [.mark ⟨.redirectAppend fd, span⟩, .word run] (.output fd target true)
  | input {fd : Option Nat} {run : List (Token Char)} {source : Word CommandList} {span : Span} :
      RunOf Body run source.parts →
        RedirectionOf [.mark ⟨.redirectIn fd, span⟩, .word run] (.input fd source)
  | hereDoc {fd : Option Nat} {delimiter body : List Char} {stripTabs quoted : Bool} {span : Span} :
      RedirectionOf [.mark ⟨.hereDoc fd stripTabs delimiter body quoted, span⟩]
        (.hereDoc fd delimiter body stripTabs quoted)
  | hereString {fd : Option Nat} {run : List (Token Char)} {content : Word CommandList}
      {span : Span} :
      RunOf Body run content.parts →
        RedirectionOf [.mark ⟨.hereString fd, span⟩, .word run] (.hereString fd content)
  | both {append : Bool} {run : List (Token Char)} {target : Word CommandList} {span : Span} :
      RunOf Body run target.parts →
        RedirectionOf [.mark ⟨.redirectBoth append, span⟩, .word run] (.both append target)
  | duplicate {source : Nat} {target : DupTarget} {output : Bool} {span : Span} :
      RedirectionOf [.mark ⟨.duplicateFd source target output, span⟩]
        (.duplicate source target output)

inductive RedirectionsOf : List Lexeme → List (Redirection CommandList) → Prop where
  | nil : RedirectionsOf [] []
  | cons {operator later : List Lexeme} {redirection : Redirection CommandList}
      {redirections : List (Redirection CommandList)} :
      RedirectionOf Body operator redirection → RedirectionsOf later redirections →
        RedirectionsOf (operator ++ later) (redirection :: redirections)

/-- Words and redirections in any order.  The tree keeps them in two lists. -/
inductive TailOf : List Lexeme → List (Word CommandList) → List (Redirection CommandList) →
    Prop where
  | nil : TailOf [] [] []
  | arg {run : List (Token Char)} {later : List Lexeme} {word : Word CommandList}
      {args : List (Word CommandList)} {redirections : List (Redirection CommandList)} :
      RunOf Body run word.parts → TailOf later args redirections →
        TailOf (.word run :: later) (word :: args) redirections
  | redirection {operator later : List Lexeme} {args : List (Word CommandList)}
      {redirection : Redirection CommandList} {redirections : List (Redirection CommandList)} :
      RedirectionOf Body operator redirection → TailOf later args redirections →
        TailOf (operator ++ later) args (redirection :: redirections)

def beginsAssignment (run : List (Token Char)) : Bool :=
  (run.head?.bind (·.kind.assignment)).isSome

/-- Assignments, a name that is none, and then words and redirections; or assignments alone. -/
inductive SimpleOf : List Lexeme → SimpleCommand CommandList → Prop where
  | command {front later : List Lexeme} {run : List (Token Char)}
      {env : List (EnvAssignment CommandList)} {name : Word CommandList}
      {args : List (Word CommandList)} {redirections : List (Redirection CommandList)}
      {span : Span} :
      EnvOf Body front env → beginsAssignment run = false → RunOf Body run name.parts →
        TailOf Body later args redirections →
          SimpleOf (front ++ .word run :: later) ⟨env, name, args, redirections, span⟩
  | assignments {front : List Lexeme} {env : List (EnvAssignment CommandList)}
      {nameSpan span : Span} :
      EnvOf Body front env → env ≠ [] → SimpleOf front ⟨env, ⟨[], nameSpan⟩, [], [], span⟩

/-- Simple commands with a `|` between them. -/
inductive PipesOf : List Lexeme → List (SimpleCommand CommandList) → Prop where
  | last {front : List Lexeme} {command : SimpleCommand CommandList} :
      SimpleOf Body front command → PipesOf front [command]
  | pipe {front later : List Lexeme} {command : SimpleCommand CommandList}
      {commands : List (SimpleCommand CommandList)} {span : Span} :
      SimpleOf Body front command → PipesOf later commands →
        PipesOf (front ++ .mark ⟨.pipe, span⟩ :: later) (command :: commands)

def LogicalOp.token : LogicalOp → TokenKind Char
  | and => .and
  | or => .or

mutual

/-- A simple command, a job of at least two, or a group with its redirections. -/
inductive CommandOf : List Lexeme → Command CommandList → Prop where
  | simple {front : List Lexeme} {command : SimpleCommand CommandList} :
      SimpleOf Body front command → CommandOf front (.simple command)
  | job {front : List Lexeme} {commands : List (SimpleCommand CommandList)} {span : Span} :
      PipesOf Body front commands → 2 ≤ commands.length → CommandOf front (.job ⟨commands, span⟩)
  | subshell {inner after : List Lexeme} {body : CommandList}
      {redirections : List (Redirection CommandList)} {left right span : Span} :
      ListOf inner body → RedirectionsOf Body after redirections →
        CommandOf (.mark ⟨.lParen, left⟩ :: inner ++ .mark ⟨.rParen, right⟩ :: after)
          (.subshell ⟨body, redirections, span⟩)
  | braceGroup {inner after : List Lexeme} {body : CommandList}
      {redirections : List (Redirection CommandList)} {left right span : Span} :
      ListOf inner body → RedirectionsOf Body after redirections →
        CommandOf (.mark ⟨.lBrace, left⟩ :: inner ++ .mark ⟨.rBrace, right⟩ :: after)
          (.braceGroup ⟨body, redirections, span⟩)

/-- A command, which an `&` puts in the background. -/
inductive ItemOf : List Lexeme → CommandItem CommandList → Prop where
  | foreground {front : List Lexeme} {command : Command CommandList} {span : Span} :
      CommandOf front command → ItemOf front ⟨command, false, span⟩
  | background {front : List Lexeme} {command : Command CommandList} {mark span : Span} :
      CommandOf front command →
        ItemOf (front ++ [.mark ⟨.ampersand, mark⟩]) ⟨command, true, span⟩

/-- Items with `&&` and `||` between them, which associate to the left.  An item in the
background ends the chain. -/
inductive AndOrOf : List Lexeme → AndOrList CommandList → Prop where
  | item {front : List Lexeme} {item : CommandItem CommandList} {span : Span} :
      ItemOf front item → AndOrOf front ⟨item, [], span⟩
  | chain {front later : List Lexeme} {andOr : AndOrList CommandList}
      {item : CommandItem CommandList} {mark span : Span} (op : LogicalOp) :
      AndOrOf front andOr → andOr.lastWasBackground = false → ItemOf later item →
        AndOrOf (front ++ .mark ⟨op.token, mark⟩ :: later)
          ⟨andOr.first, andOr.rest ++ [(op, item)], span⟩

/-- Chains with separators around them, which only a chain in the background does without. -/
inductive ListOf : List Lexeme → CommandList → Prop where
  | nil {span : Span} : ListOf [] ⟨[], span⟩
  | separator {later : List Lexeme} {list : CommandList} {token : Token Char} :
      token.kind.isSeparator = true → ListOf later list → ListOf (.mark token :: later) list
  | last {front : List Lexeme} {andOr : AndOrList CommandList} {span : Span} :
      AndOrOf front andOr → ListOf front ⟨[andOr], span⟩
  | separated {front later : List Lexeme} {andOr : AndOrList CommandList} {token : Token Char}
      {chains : List (AndOrList CommandList)} {inner span : Span} :
      AndOrOf front andOr → token.kind.isSeparator = true → ListOf later ⟨chains, inner⟩ →
        ListOf (front ++ .mark token :: later) ⟨andOr :: chains, span⟩
  | background {front later : List Lexeme} {andOr : AndOrList CommandList}
      {chains : List (AndOrList CommandList)} {inner span : Span} :
      AndOrOf front andOr → andOr.lastWasBackground = true → ListOf later ⟨chains, inner⟩ →
        ListOf (front ++ later) ⟨andOr :: chains, span⟩

end

end Productions

/-! ## Sentences -/

/-- A text stands for a tree where the tokens are those of the tree, and the texts of their
substitutions stand for the trees in it.  They are nested less deep than the bound. -/
def SentenceWithin : Nat → List Char → CommandList → Prop
  | 0, _, _ => False
  | depth + 1, input, list =>
      ∃ tokens, tokenize input = .ok tokens ∧ ListOf (SentenceWithin depth) (lexemes tokens) list

def Sentence (input : List Char) (list : CommandList) : Prop :=
  ∃ depth, SentenceWithin depth input list

end OddJobs.Shell
