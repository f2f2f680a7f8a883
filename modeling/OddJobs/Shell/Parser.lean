import OddJobs.Library.Results
import OddJobs.Shell.Ast
import OddJobs.Shell.Lexer

/-!
# Shell parser

Tokens are assembled into a syntax tree by recursive descent.  Adjacent tokens are joined
into one word, and the text of a substitution is parsed on its own.
-/

namespace OddJobs.Shell

open Library

inductive ParseError where
  | lexer (error : LexerError Char)
  | unexpectedToken (found : TokenKind Char) (expected : String) (span : Span)
  | unexpectedEof (expected : String)
  | inSubstitution (inner : ParseError) (span : Span)
  deriving DecidableEq, Repr

/-! ## The parts of a token -/

section Parts

-- How the text of a substitution is parsed.
variable (parse : List Char → Except ParseError CommandList)

def parseCommandSubstitution (content : List Char) (backtick : Bool) (span : Span) :
    Except ParseError (WordPart Char CommandList) :=
  match parse content with
  | .error inner => .error (.inSubstitution inner span)
  | .ok body => .ok (.commandSubstitution body backtick)

/-- A part of a double-quoted string, with the text of a substitution parsed. -/
def resolvePart (span : Span) : WordPart Char (List Char) →
    Except ParseError (WordPart Char CommandList)
  | .literal value quoted => .ok (.literal value quoted)
  | .var name modifier => .ok (.var name modifier)
  | .commandSubstitution content backtick => parseCommandSubstitution parse content backtick span

def tokenToParts (token : Token Char) : Except ParseError (List (WordPart Char CommandList)) :=
  match token.kind with
  | .word word => .ok [.literal word .unquoted]
  | .singleQuoted content => .ok [.literal content .single]
  | .doubleQuoted parts =>
      if parts = [] then .ok [.literal [] .double] else parts.mapM (resolvePart parse token.span)
  | .var name modifier => .ok [.var name modifier]
  | .commandSubstitution content backtick => do
      let part ← parseCommandSubstitution parse content backtick token.span
      return [part]
  | _ => .ok []

/-- Only the tokens of words have parts. -/
theorem tokenToParts_eq_nil (token : Token Char) :
    tokenToParts parse token = .ok [] ↔ token.kind.isWordPart = false := by
  obtain ⟨kind, span⟩ := token
  cases kind with
  | doubleQuoted parts =>
      rw [tokenToParts]
      dsimp only
      split
      · simp [TokenKind.isWordPart]
      · rename_i nonempty
        rw [mapM_eq_ok, List.forall₂_nil_right_iff]
        simp [nonempty, TokenKind.isWordPart]
  | commandSubstitution content backtick =>
      rw [tokenToParts]
      dsimp only
      rw [bind_eq_ok]
      simp [pure, Except.pure, TokenKind.isWordPart]
  | _ => simp [tokenToParts, TokenKind.isWordPart]

end Parts

/-- A token together with the parts of a word that it is converted to. -/
structure ParsedToken where
  token : Token Char
  parts : Except ParseError (List (WordPart Char CommandList))
  parts_eq_nil : parts = .ok [] ↔ token.kind.isWordPart = false

namespace ParsedToken

abbrev kind (token : ParsedToken) : TokenKind Char := token.token.kind

abbrev span (token : ParsedToken) : Span := token.token.span

end ParsedToken

/-! ## The position of the parser -/

/-- The position of the parser: the token before it, and the tokens behind it. -/
structure Tokens where
  inputLen : Nat
  last : Option ParsedToken
  rest : List ParsedToken

namespace Tokens

def peekKind (tokens : Tokens) : Option (TokenKind Char) := tokens.rest.head?.map (·.kind)

def advance (tokens : Tokens) : Tokens :=
  match tokens.rest with
  | [] => tokens
  | token :: rest => { tokens with
      last := some token
      rest := rest }

def atEnd (tokens : Tokens) : Bool := tokens.rest.isEmpty

def atSeparator (tokens : Tokens) : Bool :=
  tokens.peekKind == some .semi || tokens.peekKind == some .newline

def atGroupEnd (tokens : Tokens) : Bool :=
  tokens.peekKind == some .rParen || tokens.peekKind == some .rBrace

theorem length_advance {tokens : Tokens} {token : ParsedToken} {rest : List ParsedToken}
    (stands : tokens.rest = token :: rest) :
    tokens.advance.rest.length < tokens.rest.length := by
  rw [advance, stands]
  exact Nat.lt_succ_self _

def skipSeparators (tokens : Tokens) : Tokens :=
  match _stands : tokens.rest with
  | [] => tokens
  | _ :: _ => if tokens.atSeparator then skipSeparators tokens.advance else tokens
termination_by tokens.rest.length
decreasing_by exact length_advance _stands

def currentSpanStart (tokens : Tokens) : Nat := (tokens.rest.head?.map (·.span.start)).getD 0

def currentSpanEnd (tokens : Tokens) : Nat :=
  match tokens.last with
  | some token => token.span.stop
  | none => if tokens.rest.isEmpty then tokens.inputLen else 0

end Tokens

/-- An error, and where the parser stands then. -/
structure Failure where
  error : ParseError
  stopped : Tokens

def Tokens.unexpectedToken (tokens : Tokens) (expected : String) : Failure where
  error :=
    match tokens.rest with
    | token :: _ => .unexpectedToken token.kind expected token.span
    | [] => .unexpectedEof expected
  stopped := tokens

abbrev Parsed (A : Type) := A × Tokens

/-! ## Words -/

/-- Collect adjacent tokens into the parts of a word, which ends at `stop` so far. -/
def collectAdjacentParts (stop : Nat) (parts : List (WordPart Char CommandList))
    (tokens : Tokens) : Except Failure (Parsed (Nat × List (WordPart Char CommandList))) :=
  match _stands : tokens.rest with
  | [] => .ok ((stop, parts), tokens)
  | token :: _ =>
      if token.span.start = stop then
        match token.parts with
        | .error error => .error ⟨error, tokens⟩
        | .ok [] => .ok ((stop, parts), tokens)
        | .ok (part :: more) =>
            collectAdjacentParts token.span.stop (parts ++ part :: more) tokens.advance
      else .ok ((stop, parts), tokens)
termination_by tokens.rest.length
decreasing_by exact Tokens.length_advance _stands

def parseWord (tokens : Tokens) : Except Failure (Parsed (Option (Word CommandList))) :=
  match tokens.rest with
  | [] => .ok (none, tokens)
  | token :: _ =>
      match token.parts with
      | .error error => .error ⟨error, tokens⟩
      | .ok [] => .ok (none, tokens)
      | .ok (part :: more) => do
          let ((stop, parts), tokens) ←
            collectAdjacentParts token.span.stop (part :: more) tokens.advance
          return (some ⟨parts, token.span.start, stop⟩, tokens)

theorem collectAdjacentParts_length {stop : Nat} {parts : List (WordPart Char CommandList)}
    {before after : Tokens} {found : Nat × List (WordPart Char CommandList)}
    (parsed : collectAdjacentParts stop parts before = .ok (found, after)) :
    after.rest.length ≤ before.rest.length := by
  fun_induction collectAdjacentParts stop parts before with
  | case1 => cases parsed; exact Nat.le_refl _
  | case2 => cases parsed
  | case3 => cases parsed; exact Nat.le_refl _
  | case4 parts before token rest stands part more converted ih =>
      exact Nat.le_of_lt (Nat.lt_of_le_of_lt (ih parsed) (Tokens.length_advance stands))
  | case5 => cases parsed; exact Nat.le_refl _

theorem parseWord_length {before after : Tokens} {found : Option (Word CommandList)}
    (parsed : parseWord before = .ok (found, after)) :
    after.rest.length ≤ before.rest.length ∧
      (found.isSome → after.rest.length < before.rest.length) := by
  rw [parseWord] at parsed
  split at parsed
  · cases parsed
    exact ⟨Nat.le_refl _, fun found => absurd found Bool.false_ne_true⟩
  · rename_i token rest stands
    split at parsed
    · cases parsed
    · cases parsed
      exact ⟨Nat.le_refl _, fun found => absurd found Bool.false_ne_true⟩
    · rename_i part more converted
      rcases collected : collectAdjacentParts token.span.stop (part :: more) before.advance
        with _ | ⟨⟨stop, parts⟩, reached⟩
      · rw [collected] at parsed
        cases parsed
      · rw [collected] at parsed
        cases parsed
        have shorter := Nat.lt_of_le_of_lt (collectAdjacentParts_length collected)
          (Tokens.length_advance stands)
        exact ⟨Nat.le_of_lt shorter, fun _ => shorter⟩

/-! ## Assignments and redirections -/

/-- Try to parse a word as an assignment (`NAME=VALUE` or `NAME=`). -/
def tryParseAssignmentWord (word : List Char) : Option (List Char × List Char) :=
  let name := word.takeWhile (· != '=')
  match word.dropWhile (· != '=') with
  | [] => none
  | _ :: value => if isValidVariableName name then some (name, value) else none

def valueLiteral (value : List Char) : List (WordPart Char CommandList) :=
  if value.isEmpty then [] else [.literal value .unquoted]

def valueParts (parts : List (WordPart Char CommandList)) : List (WordPart Char CommandList) :=
  if parts.isEmpty then [.literal [] .unquoted] else parts

/-- Collect environment assignments from word tokens at command start. -/
def parseEnv (env : List (EnvAssignment CommandList)) (tokens : Tokens) :
    Except Failure (Parsed (List (EnvAssignment CommandList))) :=
  match _stands : tokens.rest with
  | ⟨⟨.word word, span⟩, _, _⟩ :: _ =>
      match tryParseAssignmentWord word with
      | none => .ok (env, tokens)
      | some (name, value) =>
          match _collected : collectAdjacentParts span.stop (valueLiteral value) tokens.advance with
          | .error error => .error error
          | .ok ((stop, parts), tokens) =>
              let start := span.start + (name.map size).sum + 1
              parseEnv (env ++ [⟨name, ⟨valueParts parts, start, stop⟩, span⟩]) tokens
  | _ => .ok (env, tokens)
termination_by tokens.rest.length
decreasing_by
  exact Nat.lt_of_le_of_lt (collectAdjacentParts_length _collected)
    (Tokens.length_advance _stands)

def requireWord (expected : String) (tokens : Tokens) :
    Except Failure (Parsed (Word CommandList)) := do
  let (word, tokens) ← parseWord tokens
  match word with
  | some word => .ok (word, tokens)
  | none => .error (tokens.unexpectedToken expected)

def parseTarget (expected : String) (build : Word CommandList → Redirection CommandList)
    (tokens : Tokens) : Except Failure (Parsed (Redirection CommandList)) := do
  let (word, tokens) ← requireWord expected tokens
  return (build word, tokens)

def parseRedirection (operator : TokenKind Char) (tokens : Tokens) :
    Except Failure (Parsed (Redirection CommandList)) :=
  match operator with
  | .redirectOut fd => parseTarget "redirect target" (.output fd · false) tokens
  | .redirectAppend fd => parseTarget "redirect target" (.output fd · true) tokens
  | .redirectIn fd => parseTarget "redirect source" (.input fd) tokens
  | .hereDoc fd stripTabs delimiter body quoted =>
      .ok (.hereDoc fd delimiter body stripTabs quoted, tokens)
  | .hereString fd => parseTarget "here-string content" (.hereString fd) tokens
  | .redirectBoth append => parseTarget "redirect target" (.both append) tokens
  | .duplicateFd source target output => .ok (.duplicate source target output, tokens)
  -- The caller has seen a redirection token.
  | other => .error ⟨.unexpectedToken other "redirection" (.empty 0), tokens⟩

theorem requireWord_length {expected : String} {before after : Tokens} {found : Word CommandList}
    (parsed : requireWord expected before = .ok (found, after)) :
    after.rest.length ≤ before.rest.length := by
  rw [requireWord] at parsed
  rcases read : parseWord before with _ | ⟨word, reached⟩
  · rw [read] at parsed
    cases parsed
  · rw [read] at parsed
    have shorter := (parseWord_length read).1
    cases word with
    | none => cases parsed
    | some word =>
        cases parsed
        exact shorter

theorem parseTarget_length {expected : String}
    {build : Word CommandList → Redirection CommandList} {before after : Tokens}
    {found : Redirection CommandList}
    (parsed : parseTarget expected build before = .ok (found, after)) :
    after.rest.length ≤ before.rest.length := by
  rw [parseTarget] at parsed
  rcases read : requireWord expected before with _ | ⟨word, reached⟩
  · rw [read] at parsed
    cases parsed
  · rw [read] at parsed
    cases parsed
    exact requireWord_length read

theorem parseRedirection_length {operator : TokenKind Char} {before after : Tokens}
    {found : Redirection CommandList}
    (parsed : parseRedirection operator before = .ok (found, after)) :
    after.rest.length ≤ before.rest.length := by
  cases operator with
  | redirectOut fd =>
      rw [parseRedirection] at parsed
      exact parseTarget_length parsed
  | redirectAppend fd =>
      rw [parseRedirection] at parsed
      exact parseTarget_length parsed
  | redirectIn fd => exact parseTarget_length parsed
  | hereString fd => exact parseTarget_length parsed
  | redirectBoth append => exact parseTarget_length parsed
  | hereDoc fd stripTabs delimiter body quoted =>
      cases parsed
      exact Nat.le_refl _
  | duplicateFd source target output =>
      cases parsed
      exact Nat.le_refl _
  | _ => cases parsed

/-! ## Simple commands -/

structure CommandTail where
  args : List (Word CommandList)
  redirections : List (Redirection CommandList)
  endSpan : Span

def parseTail (tail : CommandTail) (tokens : Tokens) : Except Failure (Parsed CommandTail) :=
  match _stands : tokens.rest with
  | [] => .ok (tail, tokens)
  | token :: _ =>
      if token.kind.isRedirection then
        match _parsed : parseRedirection token.kind tokens.advance with
        | .error error => .error error
        | .ok (redirection, tokens) =>
            parseTail { tail with
              redirections := tail.redirections ++ [redirection]
              endSpan := redirection.targetSpan.getD tail.endSpan } tokens
      else
        match _parsed : parseWord tokens with
        | .error error => .error error
        | .ok (none, tokens) => .ok (tail, tokens)
        | .ok (some word, tokens) =>
            parseTail { tail with
              args := tail.args ++ [word]
              endSpan := word.span } tokens
termination_by tokens.rest.length
decreasing_by
  · exact Nat.lt_of_le_of_lt (parseRedirection_length _parsed)
      (Tokens.length_advance _stands)
  · exact (parseWord_length _parsed).2 rfl

def parseSimpleCommand (tokens : Tokens) :
    Except Failure (Parsed (SimpleCommand CommandList)) := do
  let startSpan := (tokens.rest.head?.map (·.span)).getD (.empty 0)
  let (env, tokens) ← parseEnv [] tokens
  let (name, tokens) ← parseWord tokens
  match name with
  | some name =>
      let (tail, tokens) ← parseTail ⟨[], [], name.span⟩ tokens
      return (⟨env, name, tail.args, tail.redirections, startSpan.merge tail.endSpan⟩, tokens)
  | none =>
      -- Standalone assignments have an empty name.
      if env ≠ [] then return (⟨env, ⟨[], .empty startSpan.start⟩, [], [], startSpan⟩, tokens)
      else .error (tokens.unexpectedToken "command")

/-! ## Jobs and lists -/

inductive CompoundDelimiter where
  | paren
  | brace
  deriving DecidableEq, Repr

namespace CompoundDelimiter

def openingToken : CompoundDelimiter → TokenKind Char
  | paren => .lParen
  | brace => .lBrace

def closingToken : CompoundDelimiter → TokenKind Char
  | paren => .rParen
  | brace => .rBrace

def closingStr : CompoundDelimiter → String
  | paren => "')'"
  | brace => "'\x7d'"

def build (delimiter : CompoundDelimiter) (body : CommandList)
    (redirections : List (Redirection CommandList)) (span : Span) : Command CommandList :=
  match delimiter with
  | paren => .subshell ⟨body, redirections, span⟩
  | brace => .braceGroup ⟨body, redirections, span⟩

end CompoundDelimiter

/-- Parse the redirections after a compound command, which ends at `stop` so far. -/
def parseRedirections (redirections : List (Redirection CommandList)) (stop : Nat)
    (tokens : Tokens) : Except Failure (Parsed (List (Redirection CommandList) × Nat)) :=
  match _stands : tokens.rest with
  | [] => .ok ((redirections, stop), tokens)
  | token :: _ =>
      if token.kind.isRedirection then
        match _parsed : parseRedirection token.kind tokens.advance with
        | .error error => .error error
        | .ok (redirection, tokens) =>
            parseRedirections (redirections ++ [redirection])
              ((redirection.targetSpan.map (·.stop)).getD stop) tokens
      else .ok ((redirections, stop), tokens)
termination_by tokens.rest.length
decreasing_by
  exact Nat.lt_of_le_of_lt (parseRedirection_length _parsed) (Tokens.length_advance _stands)

/-- The commands behind each `|` of a job.  There are no more of them than the fuel. -/
def parsePipes (commands : List (SimpleCommand CommandList)) :
    Nat → Tokens → Except Failure (Parsed (List (SimpleCommand CommandList)))
  | 0, tokens => .error (tokens.unexpectedToken "command")
  | fuel + 1, tokens =>
      if tokens.peekKind = some .pipe then do
        let (command, tokens) ← parseSimpleCommand tokens.advance
        parsePipes (commands ++ [command]) fuel tokens
      else .ok (commands, tokens)

mutual

def parseChains (inner : Bool) (commands : List (AndOrList CommandList)) :
    Nat → Tokens → Except Failure (Parsed (List (AndOrList CommandList)))
  | 0, tokens => .error (tokens.unexpectedToken "command")
  | fuel + 1, tokens =>
      if tokens.atEnd || (inner && tokens.atGroupEnd) then .ok (commands, tokens)
      else do
        let (andOr, tokens) ← parseAndOrList fuel tokens
        let commands := commands ++ [andOr]
        if !andOr.lastWasBackground && !tokens.atEnd && !tokens.atSeparator &&
            !(inner && tokens.atGroupEnd) then
          .error (tokens.unexpectedToken
            (if inner then "';', newline, or closing delimiter" else "';' or newline"))
        else parseChains inner commands fuel tokens.skipSeparators

def parseCommandListImpl (inner : Bool) :
    Nat → Tokens → Except Failure (Parsed CommandList)
  | 0, tokens => .error (tokens.unexpectedToken "command")
  | fuel + 1, tokens => do
      let start := tokens.currentSpanStart
      let (commands, tokens) ← parseChains inner [] fuel tokens.skipSeparators
      return (⟨commands, start, max tokens.currentSpanEnd start⟩, tokens)

/-- Parse an and-or list: items connected by `&&` or `||`. -/
def parseAndOrList : Nat → Tokens → Except Failure (Parsed (AndOrList CommandList))
  | 0, tokens => .error (tokens.unexpectedToken "command")
  | fuel + 1, tokens => do
      let (first, tokens) ← parseCommandItem fuel tokens
      if first.background then return (⟨first, [], first.span⟩, tokens)
      else
        let (rest, tokens) ← parseOperators [] fuel tokens
        let endSpan := (rest.getLast?.map (·.2.span)).getD first.span
        return (⟨first, rest, first.span.merge endSpan⟩, tokens)

def parseOperators (rest : List (LogicalOp × CommandItem CommandList)) :
    Nat → Tokens → Except Failure (Parsed (List (LogicalOp × CommandItem CommandList)))
  | 0, tokens => .error (tokens.unexpectedToken "command")
  | fuel + 1, tokens =>
      match tokens.peekKind with
      | some .and => parseOperand rest .and fuel tokens.advance
      | some .or => parseOperand rest .or fuel tokens.advance
      | _ => .ok (rest, tokens)

/-- Parse the item behind an operator, and what follows unless it is in the background. -/
def parseOperand (rest : List (LogicalOp × CommandItem CommandList)) (op : LogicalOp) :
    Nat → Tokens → Except Failure (Parsed (List (LogicalOp × CommandItem CommandList)))
  | 0, tokens => .error (tokens.unexpectedToken "command")
  | fuel + 1, tokens => do
      let (item, tokens) ← parseCommandItem fuel tokens
      let rest := rest ++ [(op, item)]
      if item.background then return (rest, tokens) else parseOperators rest fuel tokens

def parseCommandItem : Nat → Tokens → Except Failure (Parsed (CommandItem CommandList))
  | 0, tokens => .error (tokens.unexpectedToken "command")
  | fuel + 1, tokens => do
      let (command, tokens) ← parseJob fuel tokens
      match tokens.rest with
      | ⟨⟨.ampersand, span⟩, _, _⟩ :: _ =>
          return (⟨command, true, command.span.merge span⟩, tokens.advance)
      | _ => return (⟨command, false, command.span.merge command.span⟩, tokens)

/-- Parse a job: a compound command, or simple commands connected by `|`. -/
def parseJob : Nat → Tokens → Except Failure (Parsed (Command CommandList))
  | 0, tokens => .error (tokens.unexpectedToken "command")
  | fuel + 1, tokens =>
      match tokens.peekKind with
      | some .lParen => parseCompoundCommand .paren fuel tokens
      | some .lBrace => parseCompoundCommand .brace fuel tokens
      | _ => do
          let (first, tokens) ← parseSimpleCommand tokens
          if tokens.peekKind = some .pipe then
            let (commands, tokens) ← parsePipes [first] (tokens.rest.length + 1) tokens
            let endSpan := ((commands.getLast?.map (·.span)).getD first.span)
            return (.job ⟨commands, first.span.merge endSpan⟩, tokens)
          else return (.simple first, tokens)

def parseCompoundCommand (delimiter : CompoundDelimiter) :
    Nat → Tokens → Except Failure (Parsed (Command CommandList))
  | 0, tokens => .error (tokens.unexpectedToken "command")
  | fuel + 1, tokens => do
      let start := tokens.currentSpanStart
      let (body, tokens) ← parseCommandListImpl true fuel tokens.advance
      match tokens.rest with
      | token :: _ =>
          if token.kind = delimiter.closingToken then
            let ((redirections, stop), tokens) ←
              parseRedirections [] token.span.stop tokens.advance
            return (delimiter.build body redirections ⟨start, stop⟩, tokens)
          else .error (tokens.unexpectedToken delimiter.closingStr)
      | [] => .error (tokens.unexpectedToken delimiter.closingStr)

end

def parseCommandList (inputLen : Nat) (tokens : List ParsedToken) :
    Except ParseError CommandList := do
  let start : Tokens := ⟨inputLen, none, tokens⟩
  let (list, _) ← (parseCommandListImpl false (8 * tokens.length + 8) start).mapError (·.error)
  return list

def Token.parsed (parse : List Char → Except ParseError CommandList) (token : Token Char) :
    ParsedToken := ⟨token, tokenToParts parse token, tokenToParts_eq_nil parse token⟩

/-- Parse an input whose substitutions are nested less deep than the fuel. -/
def parseNested : Nat → List Char → Except ParseError CommandList
  | 0, _ => .error (.unexpectedEof "command")
  | depth + 1, input =>
      match tokenize input with
      | .error error => .error (.lexer error)
      | .ok tokens =>
          parseCommandList (input.map size).sum (tokens.map (Token.parsed (parseNested depth)))

def Parser.parse (input : List Char) : Except ParseError CommandList :=
  parseNested (input.length + 1) input

end OddJobs.Shell
