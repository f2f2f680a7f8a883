import Mathlib.Algebra.Ring.Nat

/-!
# Tokens of the shell

The lexer looks at a letter only through its character.  The letters of a command are
characters; letters that also carry where they come from are read in the same way.
-/

namespace OddJobs.Shell

class Letter (α : Type) where
  char : α → Char
  plain : Char → α
  char_plain : ∀ c, char (plain c) = c

instance : Letter Char where
  char := id
  plain := id
  char_plain := fun _ => rfl

@[simp] theorem char_self (c : Char) : Letter.char c = c := rfl

/-- A range of the source text, in bytes. -/
structure Span where
  start : Nat
  stop : Nat
  deriving DecidableEq, Repr

def Span.empty (pos : Nat) : Span := ⟨pos, pos⟩

def Span.merge (span other : Span) : Span :=
  ⟨min span.start other.start, max span.stop other.stop⟩

/-- How a literal was quoted in the source. -/
inductive QuoteStyle where
  | unquoted
  | single
  | double
  deriving DecidableEq, Repr

inductive DupTarget where
  | fd (fd : Nat)
  | close
  deriving DecidableEq, Repr

/-- A part of a word.  The body of a substitution is its unparsed text in a token, and the
parsed commands in a syntax tree. -/
inductive WordPart (α β : Type) where
  | literal (value : List α) (quoted : QuoteStyle)
  | var (name : List α) (modifier : Option (List α))
  | commandSubstitution (body : β) (backtick : Bool)
  deriving DecidableEq, Repr

def WordPart.content {α β : Type} : WordPart α β → Option β
  | commandSubstitution body _ => some body
  | _ => none

inductive TokenKind (α : Type) where
  | word (word : List α)
  | singleQuoted (content : List α)
  | doubleQuoted (parts : List (WordPart α (List α)))
  | var (name : List α) (modifier : Option (List α))
  | and
  | or
  | pipe
  | semi
  | ampersand
  | newline
  | commandSubstitution (content : List α) (backtick : Bool)
  | redirectOut (fd : Option Nat)
  | redirectAppend (fd : Option Nat)
  | redirectIn (fd : Option Nat)
  | hereDoc (fd : Option Nat) (stripTabs : Bool) (delimiter body : List α) (quoted : Bool)
  | hereString (fd : Option Nat)
  | redirectBoth (append : Bool)
  | duplicateFd (source : Nat) (target : DupTarget) (output : Bool)
  | lParen
  | rParen
  | lBrace
  | rBrace
  deriving DecidableEq, Repr

structure Token (α : Type) where
  kind : TokenKind α
  span : Span
  deriving DecidableEq, Repr

inductive LexerError (α : Type) where
  | unterminatedVariable (span : Span)
  | emptyVariable (span : Span)
  | invalidVariableName (name : List α) (span : Span)
  | unterminatedSubstitution (span : Span)
  | invalidRedirection (message : String) (span : Span)
  | unterminatedSingleQuote (span : Span)
  | unterminatedDoubleQuote (span : Span)
  | invalidEscape (ch : α) (span : Span)
  | trailingBackslash (span : Span)
  | unterminatedHereDoc (delimiter : List α) (span : Span)
  deriving DecidableEq, Repr

def isSpecialVariable (c : Char) : Bool := c == '?' || c == '$' || c == '#' || c == '0'

def isValidVariableStart (c : Char) : Bool := c.isAlpha || c == '_'

def isValidVariableChar (c : Char) : Bool := c.isAlphanum || c == '_'

def isValidVariableName : List Char → Bool
  | [] => false
  | c :: rest => isValidVariableStart c && rest.all isValidVariableChar

namespace TokenKind

variable {α : Type}

def isRedirection : TokenKind α → Bool
  | redirectOut _ => true
  | redirectAppend _ => true
  | redirectIn _ => true
  | hereDoc _ _ _ _ _ => true
  | hereString _ => true
  | redirectBoth _ => true
  | duplicateFd _ _ _ => true
  | _ => false

def isWordPart : TokenKind α → Bool
  | word _ => true
  | singleQuoted _ => true
  | doubleQuoted _ => true
  | var _ _ => true
  | commandSubstitution _ _ => true
  | _ => false

def isSeparator : TokenKind α → Bool
  | semi => true
  | newline => true
  | _ => false

def contents : TokenKind α → List (List α)
  | doubleQuoted parts => parts.filterMap WordPart.content
  | commandSubstitution content _ => [content]
  | _ => []

theorem isRedirection_notWordPart {kind : TokenKind α} (redirects : kind.isRedirection = true) :
    kind.isWordPart = false := by
  cases kind with
  | word _ => cases redirects
  | singleQuoted _ => cases redirects
  | doubleQuoted _ => cases redirects
  | var _ _ => cases redirects
  | commandSubstitution _ _ => cases redirects
  | _ => rfl

end TokenKind

end OddJobs.Shell
