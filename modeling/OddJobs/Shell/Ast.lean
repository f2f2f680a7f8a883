import OddJobs.Shell.Token

/-!
# Syntax trees of the shell

The nodes are given for any type of command lists, so that only the command list itself
has to be recursive: it stands in the bodies of groups and of substitutions.
-/

namespace OddJobs.Shell

section Nodes

variable (Commands : Type)

/-- A word in a command (can be literal, variable, etc.). -/
structure Word where
  parts : List (WordPart Char Commands)
  span : Span
  deriving DecidableEq, Repr

structure EnvAssignment where
  name : List Char
  value : Word Commands
  span : Span
  deriving DecidableEq, Repr

inductive Redirection where
  | output (fd : Option Nat) (target : Word Commands) (append : Bool)
  | input (fd : Option Nat) (source : Word Commands)
  | hereDoc (fd : Option Nat) (delimiter body : List Char) (stripTabs quoted : Bool)
  | hereString (fd : Option Nat) (content : Word Commands)
  | both (append : Bool) (target : Word Commands)
  | duplicate (source : Nat) (target : DupTarget) (output : Bool)
  deriving DecidableEq, Repr

/-- A simple command: optional env assignments, a command name, and arguments. -/
structure SimpleCommand where
  env : List (EnvAssignment Commands)
  name : Word Commands
  args : List (Word Commands)
  redirections : List (Redirection Commands)
  span : Span
  deriving DecidableEq, Repr

/-- A job of commands connected by `|`. -/
structure Job where
  commands : List (SimpleCommand Commands)
  span : Span
  deriving DecidableEq, Repr

structure Subshell where
  body : Commands
  redirections : List (Redirection Commands)
  span : Span
  deriving DecidableEq, Repr

structure BraceGroup where
  body : Commands
  redirections : List (Redirection Commands)
  span : Span
  deriving DecidableEq, Repr

inductive Command where
  | simple (command : SimpleCommand Commands)
  | job (job : Job Commands)
  | subshell (subshell : Subshell Commands)
  | braceGroup (group : BraceGroup Commands)
  deriving DecidableEq, Repr

structure CommandItem where
  command : Command Commands
  background : Bool
  span : Span
  deriving DecidableEq, Repr

inductive LogicalOp where
  | and
  | or
  deriving DecidableEq, Repr

/-- A chain of commands connected by `&&` or `||`. -/
structure AndOrList where
  first : CommandItem Commands
  rest : List (LogicalOp × CommandItem Commands)
  span : Span
  deriving DecidableEq, Repr

end Nodes

/-- A command list containing command chains separated by `;` or newlines. -/
inductive CommandList where
  | mk (commands : List (AndOrList CommandList)) (span : Span)

namespace CommandList

def commands : CommandList → List (AndOrList CommandList)
  | mk commands _ => commands

def span : CommandList → Span
  | mk _ span => span

end CommandList

section Spans

variable {Commands : Type}

def Command.span : Command Commands → Span
  | simple command => command.span
  | job pipeline => pipeline.span
  | subshell shell => shell.span
  | braceGroup group => group.span

def Redirection.targetSpan : Redirection Commands → Option Span
  | output _ target _ => some target.span
  | input _ source => some source.span
  | hereDoc _ _ _ _ _ => none
  | hereString _ content => some content.span
  | both _ target => some target.span
  | duplicate _ _ _ => none

def AndOrList.lastWasBackground (andOr : AndOrList Commands) : Bool :=
  ((andOr.rest.getLast?.map (·.2)).getD andOr.first).background

end Spans

end OddJobs.Shell
