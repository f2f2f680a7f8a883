import OddJobs.Shell.Quotes

/-!
# Shell lexer

The input is cut into words, operators and newlines.  The body of a here-document is
captured when the line with its operator ends.
-/

namespace OddJobs.Shell

section Lexing

variable {α : Type} [Letter α]

open Letter

/-! ## White space, newlines and operators -/

def lineContinuation (cursor : Cursor α) : Option (Cursor α) :=
  if cursor.peekChar = some '\\' then
    let cursor := cursor.next
    if cursor.peekChar = some '\n' then some cursor.next
    else if cursor.peekChar = some '\r' then
      let cursor := cursor.next
      if cursor.peekChar = some '\n' then some cursor.next else none
    else none
  else none

def consumeNewline (cursor : Cursor α) : Cursor α :=
  if cursor.peekChar = some '\n' then cursor.next
  else if cursor.peekChar = some '\r' then
    let cursor := cursor.next
    if cursor.peekChar = some '\n' then cursor.next else cursor
  else cursor

theorem Cursor.peek_some {cursor : Cursor α} {c : Char} (peeked : cursor.peekChar = some c) :
    ∃ a rest, cursor.rest = a :: rest ∧ char a = c := by
  obtain ⟨pos, rest⟩ := cursor
  cases rest with
  | nil => cases peeked
  | cons a rest => exact ⟨a, rest, rfl, Option.some.inj peeked⟩

/-- Consuming a peeked letter. -/
theorem Consumes.peeked {cursor : Cursor α} {c : Char} (peeked : cursor.peekChar = some c) :
    ∃ a, char a = c ∧ Consumes [a] cursor cursor.next := by
  obtain ⟨a, rest, stands, is⟩ := Cursor.peek_some peeked
  exact ⟨a, is, Consumes.next stands⟩

theorem lineContinuation_some {before after : Cursor α}
    (continues : lineContinuation before = some after) :
    ∃ a text, Consumes (a :: text) before after ∧ char a = '\\' := by
  rw [lineContinuation] at continues
  split at continues
  · rename_i backslash
    obtain ⟨a, is, first⟩ := Consumes.peeked backslash
    dsimp only at continues
    split at continues
    · rename_i newline
      obtain ⟨b, -, second⟩ := Consumes.peeked newline
      cases continues
      exact ⟨a, [b], first.trans second, is⟩
    · split at continues
      · rename_i carriage
        obtain ⟨b, -, second⟩ := Consumes.peeked carriage
        split at continues
        · rename_i newline
          obtain ⟨c, -, third⟩ := Consumes.peeked newline
          cases continues
          exact ⟨a, [b, c], first.trans (second.trans third), is⟩
        · cases continues
      · cases continues
  · cases continues

theorem consumeNewline_consumes (cursor : Cursor α) :
    ∃ text, Consumes text cursor (consumeNewline cursor) ∧
      (cursor.peekChar = some '\n' ∨ cursor.peekChar = some '\r' → text ≠ []) := by
  rw [consumeNewline]
  split
  · rename_i newline
    obtain ⟨a, -, consumed⟩ := Consumes.peeked newline
    exact ⟨[a], consumed, fun _ => List.cons_ne_nil _ _⟩
  · rename_i noNewline
    split
    · rename_i carriage
      obtain ⟨a, -, first⟩ := Consumes.peeked carriage
      dsimp only
      split
      · rename_i newline
        obtain ⟨b, -, second⟩ := Consumes.peeked newline
        exact ⟨[a, b], first.trans second, fun _ => List.cons_ne_nil _ _⟩
      · exact ⟨[a], first, fun _ => List.cons_ne_nil _ _⟩
    · rename_i noCarriage
      exact ⟨[], Consumes.nothing cursor, fun stands => (stands.elim noNewline noCarriage).elim⟩

def skipWhitespace (cursor : Cursor α) : Cursor α :=
  if _blank : cursor.peekChar = some ' ' ∨ cursor.peekChar = some '\t' then
    skipWhitespace cursor.next
  else
    match _continues : lineContinuation cursor with
    | some cursor => skipWhitespace cursor
    | none => cursor
termination_by cursor.rest.length
decreasing_by
  · rcases _blank with peeked | peeked <;>
    · obtain ⟨a, -, consumed⟩ := Consumes.peeked peeked
      have shorter := consumed.length_eq
      rw [List.length_singleton] at shorter
      omega
  · obtain ⟨a, text, consumed, -⟩ := lineContinuation_some _continues
    have shorter := consumed.length_eq
    rw [List.length_cons] at shorter
    omega

theorem skipWhitespace_consumes (cursor : Cursor α) :
    ∃ text, Consumes text cursor (skipWhitespace cursor) := by
  fun_induction skipWhitespace cursor with
  | case1 cursor blank ih =>
      obtain ⟨text, later⟩ := ih
      rcases blank with peeked | peeked <;>
      · obtain ⟨a, -, consumed⟩ := Consumes.peeked peeked
        exact ⟨_, consumed.trans later⟩
  | case2 cursor notBlank next continues ih =>
      obtain ⟨text, later⟩ := ih
      obtain ⟨a, front, consumed, -⟩ := lineContinuation_some continues
      exact ⟨_, consumed.trans later⟩
  | case3 cursor notBlank stands => exact ⟨[], Consumes.nothing cursor⟩

/-- Where white space has been skipped, none follows. -/
theorem skipWhitespace_stops (cursor : Cursor α) :
    (skipWhitespace cursor).peekChar ≠ some ' ' ∧ (skipWhitespace cursor).peekChar ≠ some '\t' ∧
      lineContinuation (skipWhitespace cursor) = none := by
  fun_induction skipWhitespace cursor with
  | case1 cursor blank ih => exact ih
  | case2 cursor notBlank next continues ih => exact ih
  | case3 cursor notBlank stands =>
      obtain ⟨noSpace, noTab⟩ := not_or.mp notBlank
      exact ⟨noSpace, noTab, stands⟩

def skipNewlines (cursor : Cursor α) : Cursor α :=
  if _newline : cursor.peekChar = some '\n' ∨ cursor.peekChar = some '\r' then
    skipNewlines (consumeNewline cursor)
  else if _blank : cursor.peekChar = some ' ' ∨ cursor.peekChar = some '\t' then
    skipNewlines cursor.next
  else cursor
termination_by cursor.rest.length
decreasing_by
  · obtain ⟨text, consumed, nonempty⟩ := consumeNewline_consumes cursor
    have shorter := consumed.length_eq
    have positive := List.length_pos_iff.mpr (nonempty _newline)
    omega
  · rcases _blank with peeked | peeked <;>
    · obtain ⟨a, -, consumed⟩ := Consumes.peeked peeked
      have shorter := consumed.length_eq
      rw [List.length_singleton] at shorter
      omega

theorem skipNewlines_consumes (cursor : Cursor α) :
    ∃ text, Consumes text cursor (skipNewlines cursor) := by
  fun_induction skipNewlines cursor with
  | case1 cursor newline ih =>
      obtain ⟨text, later⟩ := ih
      obtain ⟨front, consumed, -⟩ := consumeNewline_consumes cursor
      exact ⟨_, consumed.trans later⟩
  | case2 cursor noNewline blank ih =>
      obtain ⟨text, later⟩ := ih
      rcases blank with peeked | peeked <;>
      · obtain ⟨a, -, consumed⟩ := Consumes.peeked peeked
        exact ⟨_, consumed.trans later⟩
  | case3 cursor noNewline notBlank => exact ⟨[], Consumes.nothing cursor⟩

/-- Lex a newline token; newlines in a row are collapsed where no here-document is pending. -/
def lexNewline (noPending : Bool) (cursor : Cursor α) : Token α × Cursor α :=
  let after := cursor.next
  (⟨.newline, cursor.pos, cursor.pos + 1⟩, if noPending then skipNewlines after else after)

/-- Lex an ampersand, `&&`, `&>`, or `&>>` operator. -/
def lexAmpersand (cursor : Cursor α) : Token α × Cursor α :=
  let start := cursor.pos
  let cursor := cursor.next
  if cursor.peekChar = some '&' then (⟨.and, start, start + 2⟩, cursor.next)
  else if cursor.peekChar = some '>' then
    let cursor := cursor.next
    if cursor.peekChar = some '>' then (⟨.redirectBoth true, start, start + 3⟩, cursor.next)
    else (⟨.redirectBoth false, start, start + 2⟩, cursor)
  else (⟨.ampersand, start, start + 1⟩, cursor)

/-- Lex a pipe or `||` operator. -/
def lexPipe (cursor : Cursor α) : Token α × Cursor α :=
  let start := cursor.pos
  let cursor := cursor.next
  if cursor.peekChar = some '|' then (⟨.or, start, start + 2⟩, cursor.next)
  else (⟨.pipe, start, start + 1⟩, cursor)

/-! ## Redirections -/

def parseU32 (digits : List Char) : Option Nat :=
  if digits = [] ∨ ¬digits.all Char.isDigit then none
  else
    let number := Nat.ofDigitChars 10 digits 0
    if number < 2 ^ 32 then some number else none

/-- Byte length of a file descriptor when rendered as a string. -/
def fdPrefixLen (fd : Option Nat) : Nat := (fd.map fun fd => (Nat.toDigits 10 fd).length).getD 0

/-- Lex the target of a file descriptor duplication (`>&n`, `<&n`, `>&-`, `<&-`). -/
def lexDupTarget (start source : Nat) (output : Bool) (prefixLen : Nat) (cursor : Cursor α) :
    Except (LexerError α) (Token α × Cursor α) :=
  let targetStart := if cursor.rest.isEmpty then start + prefixLen else cursor.pos
  if cursor.peekChar = some '-' then
    .ok (⟨.duplicateFd source .close output, start, targetStart + 1⟩, cursor.next)
  else
    let digits := cursor.rest.takeWhile fun a => (char a).isDigit
    let after : Cursor α :=
      ⟨cursor.pos + (digits.map size).sum, cursor.rest.dropWhile fun a => (char a).isDigit⟩
    let stop := targetStart + digits.length
    if digits = [] then
      .error (.invalidRedirection "expected file descriptor after >&" ⟨start, targetStart⟩)
    else
      match parseU32 (digits.map char) with
      | none => .error (.invalidRedirection "invalid file descriptor" ⟨targetStart, stop⟩)
      | some fd => .ok (⟨.duplicateFd source (.fd fd) output, start, stop⟩, after)

def readSingleQuotedDelimiter (start : Nat) :
    List α → Nat → List α → Except (LexerError α) (List α × Cursor α)
  | _, pos, [] => .error (.unterminatedSingleQuote ⟨start, pos⟩)
  | delimiter, pos, a :: rest =>
      if char a = '\'' then .ok (delimiter, ⟨pos + size a, rest⟩)
      else if char a = '\n' ∨ char a = '\r' then .error (.unterminatedSingleQuote ⟨start, pos⟩)
      else readSingleQuotedDelimiter start (delimiter ++ [a]) (pos + size a) rest

/-- A letter after a backslash in a double-quoted delimiter: only some escapes are special. -/
def escapedInDelimiter (a : α) : List α :=
  if char a = '\"' ∨ char a = '\\' ∨ char a = '$' ∨ char a = '`' then [a]
  else if char a = '\n' then []
  else [plain '\\', a]

def readDoubleQuotedDelimiter (start : Nat) :
    Bool → List α → Nat → List α → Except (LexerError α) (List α × Cursor α)
  | _, _, pos, [] => .error (.unterminatedDoubleQuote ⟨start, pos⟩)
  | true, delimiter, pos, a :: rest =>
      readDoubleQuotedDelimiter start false (delimiter ++ escapedInDelimiter a) (pos + size a) rest
  | false, delimiter, pos, a :: rest =>
      if char a = '\"' then .ok (delimiter, ⟨pos + size a, rest⟩)
      else if char a = '\\' then
        readDoubleQuotedDelimiter start true delimiter (pos + size a) rest
      else if char a = '\n' ∨ char a = '\r' then .error (.unterminatedDoubleQuote ⟨start, pos⟩)
      else readDoubleQuotedDelimiter start false (delimiter ++ [a]) (pos + size a) rest

def isDelimiterEnd (c : Char) : Bool :=
  [' ', '\t', '\n', '\r', ';', '&', '|', '(', ')', '<', '>'].contains c

def readUnquotedDelimiter : Bool → List α → Nat → List α → List α × Cursor α
  | _, delimiter, pos, [] => (delimiter, ⟨pos, []⟩)
  | true, delimiter, pos, a :: rest =>
      readUnquotedDelimiter false (delimiter ++ [a]) (pos + size a) rest
  | false, delimiter, pos, a :: rest =>
      if char a = '\\' then readUnquotedDelimiter true delimiter (pos + size a) rest
      else if isDelimiterEnd (char a) then (delimiter, ⟨pos, a :: rest⟩)
      else readUnquotedDelimiter false (delimiter ++ [a]) (pos + size a) rest

def readHeredocDelimiter (cursor : Cursor α) :
    Except (LexerError α) ((List α × Bool) × Cursor α) :=
  if cursor.peekChar = some '\'' then do
    let after := cursor.next
    let (delimiter, after) ← readSingleQuotedDelimiter cursor.pos [] after.pos after.rest
    return ((delimiter, true), after)
  else if cursor.peekChar = some '\"' then do
    let after := cursor.next
    let (delimiter, after) ← readDoubleQuotedDelimiter cursor.pos false [] after.pos after.rest
    return ((delimiter, true), after)
  else
    let (delimiter, after) := readUnquotedDelimiter false [] cursor.pos cursor.rest
    .ok ((delimiter, false), after)

/-- Lex a here-document operator with its delimiter, after `<<` or `<<-` has been consumed.
The body is filled in after the newline. -/
def lexHeredoc (start : Nat) (fd : Option Nat) (stripTabs : Bool) (prefixLen : Nat)
    (cursor : Cursor α) : Except (LexerError α) (Token α × Cursor α) := do
  let ((delimiter, quoted), cursor) ← readHeredocDelimiter (skipWhitespace cursor)
  if delimiter = [] then
    .error (.invalidRedirection "expected delimiter after <<" ⟨start, start + prefixLen⟩)
  else .ok (⟨.hereDoc fd stripTabs delimiter [] quoted, start, cursor.pos⟩, cursor)

/-- Lex output redirection `>`, `>>`, or `>&`. -/
def lexRedirectOut (start : Nat) (fd : Option Nat) (cursor : Cursor α) :
    Except (LexerError α) (Token α × Cursor α) :=
  let cursor := cursor.next
  let fdLen := fdPrefixLen fd
  if cursor.peekChar = some '>' then
    .ok (⟨.redirectAppend fd, start, start + fdLen + 2⟩, cursor.next)
  else if cursor.peekChar = some '&' then
    lexDupTarget start (fd.getD 1) true (fdLen + 2) cursor.next
  else .ok (⟨.redirectOut fd, start, start + fdLen + 1⟩, cursor)

/-- Lex input redirection `<`, `<<`, `<<-`, `<<<`, or `<&`. -/
def lexRedirectIn (start : Nat) (fd : Option Nat) (cursor : Cursor α) :
    Except (LexerError α) (Token α × Cursor α) :=
  let cursor := cursor.next
  let fdLen := fdPrefixLen fd
  if cursor.peekChar = some '<' then
    let cursor := cursor.next
    if cursor.peekChar = some '<' then
      .ok (⟨.hereString fd, start, start + fdLen + 3⟩, cursor.next)
    else if cursor.peekChar = some '-' then lexHeredoc start fd true (fdLen + 3) cursor.next
    else lexHeredoc start fd false (fdLen + 2) cursor
  else if cursor.peekChar = some '&' then
    lexDupTarget start (fd.getD 0) false (fdLen + 2) cursor.next
  else .ok (⟨.redirectIn fd, start, start + fdLen + 1⟩, cursor)

/-! ## Words -/

def isWordBoundary (c : Char) : Bool :=
  [' ', '\t', '\n', '\r', '&', '|', ';', '$', '`', '<', '>', '(', ')', '\x7b', '\x7d', '\'',
    '\"'].contains c

/-- An escaped letter of a word: the backslash is kept before glob metacharacters. -/
def escapedInWord (backslash a : α) : List α :=
  if char a = '*' ∨ char a = '?' ∨ char a = '[' then [backslash, a] else [a]

/-- The letters of a word, from those read so far on, and where the last of them ends. -/
def readWord (word : List α) (stop : Nat) (cursor : Cursor α) : List α × Nat × Cursor α :=
  match _stands : cursor.rest with
  | [] => (word, stop, cursor)
  | a :: rest =>
      match _continues : lineContinuation cursor with
      | some cursor => readWord word stop cursor
      | none =>
          let after := cursor.pos + size a
          if char a = '\\' then
            match rest with
            | b :: later =>
                -- An escaped letter, unless a newline ends the line.
                if char b ≠ '\n' ∧ char b ≠ '\r' then
                  readWord (word ++ escapedInWord a b) (after + size b) ⟨after + size b, later⟩
                else readWord (word ++ [a]) after ⟨after, b :: later⟩
            | [] => readWord (word ++ [a]) after ⟨after, []⟩
          else if isWordBoundary (char a) then (word, stop, cursor)
          else readWord (word ++ [a]) after ⟨after, rest⟩
termination_by cursor.rest.length
decreasing_by
  · obtain ⟨a, text, consumed, -⟩ := lineContinuation_some _continues
    have shorter := consumed.length_eq
    rw [List.length_cons] at shorter
    omega
  all_goals
    rw [_stands]
    simp only [List.length_cons]
    omega

def lexWord (cursor : Cursor α) : Except (LexerError α) (Token α × Cursor α) :=
  let start := cursor.pos
  let (word, stop, cursor) := readWord [] start cursor
  match parseU32 (word.map char) with
  | none => .ok (⟨.word word, start, stop⟩, cursor)
  | some fd =>
      if cursor.peekChar = some '>' then lexRedirectOut start (some fd) cursor
      else if cursor.peekChar = some '<' then lexRedirectIn start (some fd) cursor
      else .ok (⟨.word word, start, stop⟩, cursor)

/-! ## Unquoted variables and substitutions -/

/-- Lex a variable reference (`$VAR` or `$` and braces) or a command substitution. -/
def lexVariable (cursor : Cursor α) : Except (LexerError α) (Token α × Cursor α) :=
  let start := cursor.pos
  let cursor := cursor.next
  match cursor.rest with
  | [] => .error (.emptyVariable ⟨start, start + 1⟩)
  | a :: _ =>
      if char a = '(' then do
        let (content, cursor) ← readBalancedContent '(' ')' start cursor.next
        return (⟨.commandSubstitution content false, start, cursor.pos⟩, cursor)
      else if char a = '\x7b' then do
        let ((name, modifier), cursor) ← parseBracedVariable start cursor.next
        return (⟨.var name modifier, start, cursor.pos⟩, cursor)
      else if isSpecialVariable (char a) then
        .ok (⟨.var [a] none, start, cursor.pos + 1⟩, cursor.next)
      else if isValidVariableStart (char a) then
        let (name, after) := scanVariableName cursor
        .ok (⟨.var name none, start, cursor.pos + (name.map size).sum⟩, after)
      else .error (.emptyVariable ⟨start, start + 1⟩)

def lexBacktickSubstitution (cursor : Cursor α) : Except (LexerError α) (Token α × Cursor α) := do
  let start := cursor.pos
  let (content, cursor) ← readBacktickContent start cursor.next
  return (⟨.commandSubstitution content true, start, cursor.pos⟩, cursor)

def lexSingleQuote (cursor : Cursor α) : Except (LexerError α) (Token α × Cursor α) := do
  let start := cursor.pos
  let cursor := cursor.next
  let (content, cursor) ← readSingleQuoted start [] cursor.pos cursor.rest
  return (⟨.singleQuoted content, start, cursor.pos⟩, cursor)

def lexDoubleQuote (cursor : Cursor α) : Except (LexerError α) (Token α × Cursor α) := do
  let start := cursor.pos
  let cursor := cursor.next
  let (parts, cursor) ← readDoubleQuoted start [] [] false (start + 1) cursor.pos cursor.rest
  return (⟨.doubleQuoted parts, start, cursor.pos⟩, cursor)

/-! ## What a token consumes -/

section Consumption

variable {start pos : Nat} {before after : Cursor α} {token : Token α}

theorem lexDupTarget_consumes {source prefixLen : Nat} {output : Bool}
    (read : lexDupTarget start source output prefixLen before = .ok (token, after)) :
    ∃ text, Consumes text before after := by
  rw [lexDupTarget] at read
  dsimp only at read
  split at read
  · rename_i dash
    obtain ⟨a, -, consumed⟩ := Consumes.peeked dash
    cases read
    exact ⟨[a], consumed⟩
  · split at read
    · cases read
    · split at read
      · cases read
      · cases read
        exact ⟨_, (List.takeWhile_append_dropWhile ..).symm, rfl⟩

theorem readSingleQuotedDelimiter_consumes {delimiter found rest : List α}
    (read : readSingleQuotedDelimiter start delimiter pos rest = .ok (found, after)) :
    ∃ text, Consumes text ⟨pos, rest⟩ after := by
  induction rest generalizing delimiter pos with
  | nil => cases read
  | cons a rest ih =>
      rw [readSingleQuotedDelimiter] at read
      split at read
      · cases read
        exact ⟨[a], Consumes.letter pos a rest⟩
      · split at read
        · cases read
        · obtain ⟨text, consumed⟩ := ih read
          exact ⟨a :: text, consumed.cons⟩

theorem readDoubleQuotedDelimiter_consumes {escaped : Bool} {delimiter found rest : List α}
    (read : readDoubleQuotedDelimiter start escaped delimiter pos rest = .ok (found, after)) :
    ∃ text, Consumes text ⟨pos, rest⟩ after := by
  induction rest generalizing escaped delimiter pos with
  | nil => cases escaped <;> cases read
  | cons a rest ih =>
      have goesOn {escaped : Bool} {delimiter : List α} (read : readDoubleQuotedDelimiter start
          escaped delimiter (pos + size a) rest = .ok (found, after)) :
          ∃ text, Consumes text ⟨pos, a :: rest⟩ after := by
        obtain ⟨text, consumed⟩ := ih read
        exact ⟨a :: text, consumed.cons⟩
      cases escaped with
      | true => exact goesOn read
      | false =>
          rw [readDoubleQuotedDelimiter] at read
          split at read
          · cases read
            exact ⟨[a], Consumes.letter pos a rest⟩
          · split at read
            · exact goesOn read
            · split at read
              · cases read
              · exact goesOn read

theorem readUnquotedDelimiter_consumes (escaped : Bool) (delimiter : List α) (pos : Nat)
    (rest : List α) :
    ∃ text, Consumes text ⟨pos, rest⟩ (readUnquotedDelimiter escaped delimiter pos rest).2 := by
  induction rest generalizing escaped delimiter pos with
  | nil => exact ⟨[], by cases escaped <;> exact Consumes.nothing _⟩
  | cons a rest ih =>
      have goesOn (escaped : Bool) (delimiter : List α) : ∃ text, Consumes text ⟨pos, a :: rest⟩
          (readUnquotedDelimiter escaped delimiter (pos + size a) rest).2 := by
        obtain ⟨text, consumed⟩ := ih escaped delimiter (pos + size a)
        exact ⟨a :: text, consumed.cons⟩
      cases escaped with
      | true => exact goesOn false _
      | false =>
          rw [readUnquotedDelimiter]
          split
          · exact goesOn true _
          · split
            · exact ⟨[], Consumes.nothing _⟩
            · exact goesOn false _

theorem readHeredocDelimiter_consumes {found : List α × Bool}
    (read : readHeredocDelimiter before = .ok (found, after)) :
    ∃ text, Consumes text before after := by
  rw [readHeredocDelimiter] at read
  dsimp only at read
  split at read
  · rename_i quote
    obtain ⟨a, -, first⟩ := Consumes.peeked quote
    rcases quoted : readSingleQuotedDelimiter before.pos [] before.next.pos before.next.rest
      with _ | ⟨delimiter, cursor⟩
    · rw [quoted] at read
      cases read
    · rw [quoted] at read
      cases read
      obtain ⟨text, consumed⟩ := readSingleQuotedDelimiter_consumes quoted
      exact ⟨_, first.trans consumed⟩
  · split at read
    · rename_i quote
      obtain ⟨a, -, first⟩ := Consumes.peeked quote
      rcases quoted : readDoubleQuotedDelimiter before.pos false [] before.next.pos before.next.rest
        with _ | ⟨delimiter, cursor⟩
      · rw [quoted] at read
        cases read
      · rw [quoted] at read
        cases read
        obtain ⟨text, consumed⟩ := readDoubleQuotedDelimiter_consumes quoted
        exact ⟨_, first.trans consumed⟩
    · cases read
      exact readUnquotedDelimiter_consumes false [] before.pos before.rest

theorem lexHeredoc_consumes {prefixLen : Nat} {fd : Option Nat} {stripTabs : Bool}
    (read : lexHeredoc start fd stripTabs prefixLen before = .ok (token, after)) :
    ∃ text, Consumes text before after := by
  rw [lexHeredoc] at read
  obtain ⟨blank, skipped⟩ := skipWhitespace_consumes before
  rcases delimited : readHeredocDelimiter (skipWhitespace before)
    with _ | ⟨⟨delimiter, quoted⟩, cursor⟩
  · rw [delimited] at read
    cases read
  · rw [delimited] at read
    dsimp only [bind, Except.bind] at read
    obtain ⟨text, consumed⟩ := readHeredocDelimiter_consumes delimited
    split at read
    · cases read
    · cases read
      exact ⟨_, skipped.trans consumed⟩

theorem lexRedirectOut_advances {fd : Option Nat} {c : Char} (peeked : before.peekChar = some c)
    (read : lexRedirectOut start fd before = .ok (token, after)) : before.Advances after := by
  obtain ⟨a, -, first⟩ := Consumes.peeked peeked
  have starts : before.Advances before.next := ⟨a, [], first⟩
  rw [lexRedirectOut] at read
  split at read
  · rename_i again
    obtain ⟨b, -, second⟩ := Consumes.peeked again
    cases read
    exact starts.trans second
  · split at read
    · rename_i ampersand
      obtain ⟨b, -, second⟩ := Consumes.peeked ampersand
      obtain ⟨text, consumed⟩ := lexDupTarget_consumes read
      exact (starts.trans second).trans consumed
    · cases read
      exact starts

theorem lexRedirectIn_advances {fd : Option Nat} {c : Char} (peeked : before.peekChar = some c)
    (read : lexRedirectIn start fd before = .ok (token, after)) : before.Advances after := by
  obtain ⟨a, -, first⟩ := Consumes.peeked peeked
  have starts : before.Advances before.next := ⟨a, [], first⟩
  rw [lexRedirectIn] at read
  dsimp only at read
  split at read
  · rename_i again
    obtain ⟨b, -, second⟩ := Consumes.peeked again
    split at read
    · rename_i thrice
      obtain ⟨c, -, third⟩ := Consumes.peeked thrice
      cases read
      exact (starts.trans second).trans third
    · split at read
      · rename_i dash
        obtain ⟨c, -, third⟩ := Consumes.peeked dash
        obtain ⟨text, consumed⟩ := lexHeredoc_consumes read
        exact ((starts.trans second).trans third).trans consumed
      · obtain ⟨text, consumed⟩ := lexHeredoc_consumes read
        exact (starts.trans second).trans consumed
  · split at read
    · rename_i ampersand
      obtain ⟨b, -, second⟩ := Consumes.peeked ampersand
      obtain ⟨text, consumed⟩ := lexDupTarget_consumes read
      exact (starts.trans second).trans consumed
    · cases read
      exact starts

theorem readWord_consumes (word : List α) (stop : Nat) (cursor : Cursor α) :
    ∃ text, Consumes text cursor (readWord word stop cursor).2.2 ∧
      ∀ c, cursor.peekChar = some c → isWordBoundary c = false → text ≠ [] := by
  fun_induction readWord word stop cursor with
  | case1 word stop cursor stands =>
      refine ⟨[], Consumes.nothing cursor, ?_⟩
      intro c peeked
      rw [Cursor.peekChar, stands] at peeked
      cases peeked
  | case2 word stop cursor a rest stands next continues ih =>
      obtain ⟨b, front, consumed, -⟩ := lineContinuation_some continues
      obtain ⟨text, later, -⟩ := ih
      exact ⟨_, consumed.trans later, fun _ _ _ => List.cons_ne_nil _ _⟩
  | case3 word stop cursor a notContinued after escapes b later stands ends _ ih =>
      obtain ⟨text, consumed, -⟩ := ih
      exact ⟨_, (Consumes.step stands).trans ((Consumes.letter _ b later).trans consumed),
        fun _ _ _ => List.cons_ne_nil _ _⟩
  | case4 word stop cursor a notContinued after escapes b later stands ends _ ih =>
      obtain ⟨text, consumed, -⟩ := ih
      exact ⟨_, (Consumes.step stands).trans consumed, fun _ _ _ => List.cons_ne_nil _ _⟩
  | case5 word stop cursor a notContinued after escapes stands _ ih =>
      obtain ⟨text, consumed, -⟩ := ih
      exact ⟨_, (Consumes.step stands).trans consumed, fun _ _ _ => List.cons_ne_nil _ _⟩
  | case6 word stop cursor a rest stands notContinued _ boundary =>
      refine ⟨[], Consumes.nothing cursor, ?_⟩
      intro c peeked inside
      rw [Cursor.peekChar, stands] at peeked
      cases peeked
      rw [boundary] at inside
      cases inside
  | case7 word stop cursor a rest stands notContinued after _ _ ih =>
      obtain ⟨text, consumed, -⟩ := ih
      exact ⟨_, (Consumes.step stands).trans consumed, fun _ _ _ => List.cons_ne_nil _ _⟩

theorem lexWord_advances {c : Char} (peeked : before.peekChar = some c)
    (inside : isWordBoundary c = false) (read : lexWord before = .ok (token, after)) :
    before.Advances after := by
  obtain ⟨text, consumed, nonempty⟩ := readWord_consumes [] before.pos before
  have starts := Cursor.Advances.of_consumes consumed (nonempty c peeked inside)
  rw [lexWord] at read
  dsimp only at read
  split at read
  · cases read
    exact starts
  · have goesOn {middle : Cursor α} (later : middle.Advances after)
        (reached : before.Advances middle) : before.Advances after := by
      obtain ⟨b, later, read⟩ := later
      exact reached.trans read
    split at read
    · rename_i opens
      exact goesOn (lexRedirectOut_advances opens read) starts
    · split at read
      · rename_i opens
        exact goesOn (lexRedirectIn_advances opens read) starts
      · cases read
        exact starts

theorem lexVariable_advances {c : Char} (peeked : before.peekChar = some c)
    (read : lexVariable before = .ok (token, after)) : before.Advances after := by
  obtain ⟨a, -, first⟩ := Consumes.peeked peeked
  have starts : before.Advances before.next := ⟨a, [], first⟩
  rw [lexVariable] at read
  dsimp only at read
  split at read
  · cases read
  · rename_i b rest stands
    split at read
    · rcases content : readBalancedContent '(' ')' before.pos before.next.next
        with _ | ⟨body, cursor⟩
      · rw [content] at read
        cases read
      · rw [content] at read
        cases read
        obtain ⟨last, consumed⟩ := readBalancedContent_ok content
        exact (starts.trans (Consumes.next stands)).trans consumed
    · split at read
      · rcases parsed : parseBracedVariable before.pos before.next.next
          with _ | ⟨⟨name, modifier⟩, cursor⟩
        · rw [parsed] at read
          cases read
        · rw [parsed] at read
          cases read
          obtain ⟨front, last, consumed⟩ := parseBracedVariable_ok parsed
          exact (starts.trans (Consumes.next stands)).trans consumed
      · split at read
        · cases read
          exact starts.trans (Consumes.next stands)
        · split at read
          · cases read
            exact starts.trans (scanVariableName_consumes before.next)
          · cases read

theorem lexBacktickSubstitution_advances {c : Char} (peeked : before.peekChar = some c)
    (read : lexBacktickSubstitution before = .ok (token, after)) : before.Advances after := by
  obtain ⟨a, -, first⟩ := Consumes.peeked peeked
  rw [lexBacktickSubstitution] at read
  rcases content : readBacktickContent before.pos before.next with _ | ⟨body, cursor⟩
  · rw [content] at read
    cases read
  · rw [content] at read
    cases read
    obtain ⟨last, consumed⟩ := readBacktickContent_ok content
    exact ⟨a, _, first.trans consumed⟩

theorem lexSingleQuote_advances {c : Char} (peeked : before.peekChar = some c)
    (read : lexSingleQuote before = .ok (token, after)) : before.Advances after := by
  obtain ⟨a, -, first⟩ := Consumes.peeked peeked
  rw [lexSingleQuote] at read
  rcases quoted : readSingleQuoted before.pos [] before.next.pos before.next.rest
    with _ | ⟨content, cursor⟩
  · rw [quoted] at read
    cases read
  · rw [quoted] at read
    cases read
    obtain ⟨body, last, -, consumed⟩ := readSingleQuoted_ok quoted
    exact ⟨a, _, first.trans consumed⟩

theorem lexDoubleQuote_advances {c : Char} (peeked : before.peekChar = some c)
    (read : lexDoubleQuote before = .ok (token, after)) : before.Advances after := by
  obtain ⟨a, -, first⟩ := Consumes.peeked peeked
  rw [lexDoubleQuote] at read
  rcases quoted : readDoubleQuoted before.pos [] [] false (before.pos + 1) before.next.pos
    before.next.rest with _ | ⟨parts, cursor⟩
  · rw [quoted] at read
    cases read
  · rw [quoted] at read
    cases read
    obtain ⟨front, last, consumed⟩ := readDoubleQuoted_ok quoted
    exact ⟨a, _, first.trans consumed⟩

end Consumption

/-! ## Tokens -/

def lexSingle (kind : TokenKind α) (cursor : Cursor α) : Token α × Cursor α :=
  (⟨kind, cursor.pos, cursor.pos + 1⟩, cursor.next)

def lexToken (noPending : Bool) (c : Char) (cursor : Cursor α) :
    Except (LexerError α) (Token α × Cursor α) :=
  match c with
  | '\n' => .ok (lexNewline noPending cursor)
  | '\r' =>
      -- A carriage return is a newline of its own, so that here-documents keep their lines.
      let after := consumeNewline cursor
      .ok (⟨.newline, cursor.pos, after.pos⟩, after)
  | '&' => .ok (lexAmpersand cursor)
  | '|' => .ok (lexPipe cursor)
  | ';' => .ok (lexSingle .semi cursor)
  | '(' => .ok (lexSingle .lParen cursor)
  | ')' => .ok (lexSingle .rParen cursor)
  | '\x7b' => .ok (lexSingle .lBrace cursor)
  | '\x7d' => .ok (lexSingle .rBrace cursor)
  | '$' => lexVariable cursor
  | '`' => lexBacktickSubstitution cursor
  | '>' => lexRedirectOut cursor.pos none cursor
  | '<' => lexRedirectIn cursor.pos none cursor
  | '\'' => lexSingleQuote cursor
  | '\"' => lexDoubleQuote cursor
  | _ => lexWord cursor

def nextToken (noPending : Bool) (cursor : Cursor α) :
    Except (LexerError α) (Option (Token α × Cursor α)) :=
  let cursor := skipWhitespace cursor
  match cursor.peekChar with
  | none => .ok none
  | some c => (lexToken noPending c cursor).map some

section Consumption

variable {noPending : Bool} {c : Char} {before after : Cursor α} {token : Token α}

theorem lexNewline_consumes (noPending : Bool) (cursor : Cursor α) :
    ∃ text, Consumes text cursor.next (lexNewline noPending cursor).2 := by
  rw [lexNewline]
  cases noPending with
  | true => exact skipNewlines_consumes cursor.next
  | false => exact ⟨[], Consumes.nothing _⟩

theorem lexAmpersand_consumes (cursor : Cursor α) :
    ∃ text, Consumes text cursor.next (lexAmpersand cursor).2 := by
  rw [lexAmpersand]
  dsimp only
  split
  · rename_i again
    obtain ⟨a, -, consumed⟩ := Consumes.peeked again
    exact ⟨[a], consumed⟩
  · split
    · rename_i redirects
      obtain ⟨a, -, first⟩ := Consumes.peeked redirects
      split
      · rename_i appends
        obtain ⟨b, -, second⟩ := Consumes.peeked appends
        exact ⟨_, first.trans second⟩
      · exact ⟨[a], first⟩
    · exact ⟨[], Consumes.nothing _⟩

theorem lexPipe_consumes (cursor : Cursor α) :
    ∃ text, Consumes text cursor.next (lexPipe cursor).2 := by
  rw [lexPipe]
  split
  · rename_i again
    obtain ⟨a, -, consumed⟩ := Consumes.peeked again
    exact ⟨[a], consumed⟩
  · exact ⟨[], Consumes.nothing _⟩

/-- A token is at least one letter long. -/
theorem lexToken_advances (peeked : before.peekChar = some c) (notBlank : c ≠ ' ' ∧ c ≠ '\t')
    (read : lexToken noPending c before = .ok (token, after)) : before.Advances after := by
  obtain ⟨a, is, first⟩ := Consumes.peeked peeked
  have starts : before.Advances before.next := ⟨a, [], first⟩
  have fixed {result : Token α × Cursor α}
      (later : ∃ text, Consumes text before.next result.2)
      (read : (.ok result : Except (LexerError α) (Token α × Cursor α)) = .ok (token, after)) :
      before.Advances after := by
    obtain ⟨text, consumed⟩ := later
    cases read
    exact starts.trans consumed
  have single : ∃ text, Consumes text before.next before.next := ⟨[], Consumes.nothing _⟩
  rw [lexToken.eq_def] at read
  split at read
  · exact fixed (lexNewline_consumes noPending before) read
  · obtain ⟨text, consumed, nonempty⟩ := consumeNewline_consumes before
    cases read
    exact Cursor.Advances.of_consumes consumed (nonempty (Or.inr peeked))
  · exact fixed (lexAmpersand_consumes before) read
  · exact fixed (lexPipe_consumes before) read
  · exact fixed single read
  · exact fixed single read
  · exact fixed single read
  · exact fixed single read
  · exact fixed single read
  · exact lexVariable_advances peeked read
  · exact lexBacktickSubstitution_advances peeked read
  · exact lexRedirectOut_advances peeked read
  · exact lexRedirectIn_advances peeked read
  · exact lexSingleQuote_advances peeked read
  · exact lexDoubleQuote_advances peeked read
  · exact lexWord_advances peeked (by simp_all [isWordBoundary]) read

theorem nextToken_advances (read : nextToken noPending before = .ok (some (token, after))) :
    before.Advances after := by
  rw [nextToken] at read
  obtain ⟨blank, skipped⟩ := skipWhitespace_consumes before
  obtain ⟨noSpace, noTab, -⟩ := skipWhitespace_stops before
  split at read
  · cases read
  · rename_i c peeked
    rcases lexed : lexToken noPending c (skipWhitespace before) with _ | ⟨found, reached⟩
    · rw [lexed] at read
      cases read
    · rw [lexed] at read
      cases read
      have notBlank : c ≠ ' ' ∧ c ≠ '\t' := by
        constructor
        · rintro rfl
          exact noSpace peeked
        · rintro rfl
          exact noTab peeked
      obtain ⟨a, text, consumed⟩ := lexToken_advances peeked notBlank lexed
      exact Cursor.Advances.of_consumes (skipped.trans consumed)
        (List.append_ne_nil_of_right_ne_nil _ (List.cons_ne_nil a text))

end Consumption

/-! ## Here-documents -/

/-- Pending heredoc waiting for body capture. -/
structure PendingHereDoc (α : Type) where
  delimiter : List α
  stripTabs : Bool
  /-- Index of the token to update. -/
  tokenIndex : Nat
  span : Span
  deriving DecidableEq, Repr

def readLine (line : List α) (pos : Nat) : List α → List α × Cursor α
  | [] => (line, ⟨pos, []⟩)
  | a :: rest =>
      if char a = '\n' then (line ++ [a], ⟨pos + size a, rest⟩)
      else if char a = '\r' then
        match rest with
        | b :: later =>
            if char b = '\n' then (line ++ [a, b], ⟨pos + size a + size b, later⟩)
            else (line ++ [a], ⟨pos + size a, b :: later⟩)
        | [] => (line ++ [a], ⟨pos + size a, []⟩)
      else readLine (line ++ [a]) (pos + size a) rest

theorem readLine_consumes (line : List α) (pos : Nat) (rest : List α) :
    ∃ text, Consumes text ⟨pos, rest⟩ (readLine line pos rest).2 ∧ (rest ≠ [] → text ≠ []) := by
  fun_induction readLine line pos rest with
  | case1 line pos => exact ⟨[], Consumes.nothing _, fun some => (some rfl).elim⟩
  | case2 line pos a rest newline =>
      exact ⟨[a], Consumes.letter pos a rest, fun _ => List.cons_ne_nil _ _⟩
  | case3 line pos a noNewline carriage b later newline =>
      exact ⟨[a, b], (Consumes.letter _ b later).cons, fun _ => List.cons_ne_nil _ _⟩
  | case4 line pos a noNewline carriage b later other =>
      exact ⟨[a], Consumes.letter pos a _, fun _ => List.cons_ne_nil _ _⟩
  | case5 line pos a noNewline carriage =>
      exact ⟨[a], Consumes.letter pos a _, fun _ => List.cons_ne_nil _ _⟩
  | case6 line pos a rest noNewline noCarriage ih =>
      obtain ⟨text, consumed, -⟩ := ih
      exact ⟨a :: text, consumed.cons, fun _ => List.cons_ne_nil _ _⟩

/-- The line without the character at its end, where it stands there. -/
def stripSuffix (c : Char) (line : List α) : List α :=
  if line.getLast?.map char = some c then line.dropLast else line

/-- A line of the body: leading tabs are stripped for `<<-`. -/
def bodyLine (stripTabs : Bool) (line : List α) : List α :=
  if stripTabs then line.dropWhile (char · == '\t') else line

def isDelimiter (delimiter : List α) (stripTabs : Bool) (line : List α) : Bool :=
  (stripSuffix '\r' (stripSuffix '\n' (bodyLine stripTabs line))).map char == delimiter.map char

/-- Read heredoc body lines until the delimiter is found; none where the input ends first. -/
def readHeredocBody (delimiter : List α) (stripTabs : Bool) (body : List α) (cursor : Cursor α) :
    Option (List α × Cursor α) :=
  if _ended : cursor.rest = [] then none
  else
    let line := readLine [] cursor.pos cursor.rest
    if isDelimiter delimiter stripTabs line.1 then some (body, line.2)
    else readHeredocBody delimiter stripTabs (body ++ bodyLine stripTabs line.1) line.2
termination_by cursor.rest.length
decreasing_by
  obtain ⟨text, consumed, nonempty⟩ := readLine_consumes [] cursor.pos cursor.rest
  exact (Cursor.Advances.of_consumes consumed (nonempty _ended)).shorter

theorem readHeredocBody_consumes {delimiter body found : List α} {stripTabs : Bool}
    {before after : Cursor α}
    (read : readHeredocBody delimiter stripTabs body before = some (found, after)) :
    ∃ text, Consumes text before after := by
  fun_induction readHeredocBody delimiter stripTabs body before with
  | case1 => cases read
  | case2 body before more line ends =>
      obtain ⟨text, consumed, -⟩ := readLine_consumes [] before.pos before.rest
      cases read
      exact ⟨text, consumed⟩
  | case3 body before more line goesOn ih =>
      obtain ⟨text, consumed, -⟩ := readLine_consumes [] before.pos before.rest
      obtain ⟨later, rest⟩ := ih read
      exact ⟨_, consumed.trans rest⟩

def Token.withBody (token : Token α) (body : List α) : Token α :=
  match token.kind with
  | .hereDoc fd stripTabs delimiter _ quoted =>
      { token with kind := .hereDoc fd stripTabs delimiter body quoted }
  | _ => token

def capturePendingHeredocs (tokens : List (Token α)) (cursor : Cursor α) :
    List (PendingHereDoc α) → Except (LexerError α) (List (Token α) × Cursor α)
  | [] => .ok (tokens, cursor)
  | pending :: later =>
      match readHeredocBody pending.delimiter pending.stripTabs [] cursor with
      | none => .error (.unterminatedHereDoc pending.delimiter pending.span)
      | some (body, cursor) =>
          capturePendingHeredocs (tokens.modify pending.tokenIndex (·.withBody body)) cursor later

theorem capturePendingHeredocs_consumes {tokens found : List (Token α)} {before after : Cursor α}
    {pending : List (PendingHereDoc α)}
    (read : capturePendingHeredocs tokens before pending = .ok (found, after)) :
    ∃ text, Consumes text before after := by
  induction pending generalizing tokens before with
  | nil =>
      cases read
      exact ⟨[], Consumes.nothing _⟩
  | cons first later ih =>
      rw [capturePendingHeredocs] at read
      split at read
      · cases read
      · rename_i body cursor captured
        obtain ⟨text, consumed⟩ := readHeredocBody_consumes captured
        obtain ⟨rest, done⟩ := ih read
        exact ⟨_, consumed.trans done⟩

/-! ## The whole input -/

def Token.pending (pending : List (PendingHereDoc α)) (tokens : List (Token α)) (token : Token α) :
    List (PendingHereDoc α) :=
  match token.kind with
  | .hereDoc _ stripTabs delimiter _ _ =>
      pending ++ [⟨delimiter, stripTabs, tokens.length, token.span⟩]
  | _ => pending

/-- Tokenize the rest of the input, after the tokens read so far. -/
def tokenizeFrom (pending : List (PendingHereDoc α)) (tokens : List (Token α))
    (cursor : Cursor α) : Except (LexerError α) (List (Token α)) :=
  match _next : nextToken pending.isEmpty cursor with
  | .error error => .error error
  | .ok none =>
      match pending with
      | [] => .ok tokens
      | first :: _ => .error (.unterminatedHereDoc first.delimiter first.span)
  | .ok (some (token, after)) =>
      match token.kind with
      | .newline =>
          match _captured : capturePendingHeredocs (tokens ++ [token]) after pending with
          | .error error => .error error
          | .ok (tokens, after) => tokenizeFrom [] tokens after
      | _ => tokenizeFrom (token.pending pending tokens) (tokens ++ [token]) after
termination_by cursor.rest.length
decreasing_by
  · obtain ⟨text, consumed⟩ := capturePendingHeredocs_consumes _captured
    exact ((nextToken_advances _next).trans consumed).shorter
  · exact (nextToken_advances _next).shorter

def tokenize (input : List α) : Except (LexerError α) (List (Token α)) :=
  tokenizeFrom [] [] ⟨0, input⟩

/-! ## Steps of the lexer -/

theorem tokenizeFrom_token {pending : List (PendingHereDoc α)} {tokens : List (Token α)}
    {before after : Cursor α} {token : Token α} (line : token.kind ≠ .newline)
    (next : nextToken pending.isEmpty before = .ok (some (token, after))) :
    tokenizeFrom pending tokens before =
      tokenizeFrom (token.pending pending tokens) (tokens ++ [token]) after := by
  rw [tokenizeFrom]
  split
  · rename_i failed
    rw [next] at failed
    cases failed
  · rename_i ended
    rw [next] at ended
    cases ended
  · rename_i found reached read
    rw [next] at read
    cases read
    split
    · rename_i newline
      exact (line newline).elim
    · rfl

theorem tokenizeFrom_end {tokens : List (Token α)} (pos : Nat) :
    tokenizeFrom [] tokens ⟨pos, []⟩ = .ok tokens := by
  have ended : nextToken true (⟨pos, []⟩ : Cursor α) = .ok none := by
    have same : skipWhitespace (⟨pos, []⟩ : Cursor α) = ⟨pos, []⟩ := by
      obtain ⟨text, consumed⟩ := skipWhitespace_consumes (⟨pos, []⟩ : Cursor α)
      obtain ⟨none, left⟩ := List.append_eq_nil_iff.mp consumed.rest_eq.symm
      have stays := consumed.pos_eq
      rw [none] at stays
      rcases reached : skipWhitespace (⟨pos, []⟩ : Cursor α) with ⟨pos', rest⟩
      rw [reached] at left stays
      cases left
      cases stays
      rfl
    rw [nextToken, same]
    rfl
  rw [tokenizeFrom]
  split
  · rename_i failed
    rw [List.isEmpty_nil, ended] at failed
    cases failed
  · rfl
  · rename_i read
    rw [List.isEmpty_nil, ended] at read
    cases read

/-- The last token of an input. -/
theorem tokenizeFrom_last {tokens : List (Token α)} {before : Cursor α} {token : Token α}
    {pos : Nat} (line : token.kind ≠ .newline) (plain : token.pending [] tokens = [])
    (next : nextToken true before = .ok (some (token, ⟨pos, []⟩))) :
    tokenizeFrom [] tokens before = .ok (tokens ++ [token]) := by
  rw [@tokenizeFrom_token α _ [] tokens before ⟨pos, []⟩ token line next, plain]
  exact tokenizeFrom_end pos

theorem tokenizeFrom_error {pending : List (PendingHereDoc α)} {tokens : List (Token α)}
    {before : Cursor α} {error : LexerError α}
    (next : nextToken pending.isEmpty before = .error error) :
    tokenizeFrom pending tokens before = .error error := by
  rw [tokenizeFrom]
  split
  · rename_i failed
    rw [next] at failed
    cases failed
    rfl
  · rename_i ended
    rw [next] at ended
    cases ended
  · rename_i read
    rw [next] at read
    cases read

/-- At the end of a line the bodies that are pending are captured. -/
theorem tokenizeFrom_newline {pending : List (PendingHereDoc α)} {tokens captured : List (Token α)}
    {before behind after : Cursor α} {token : Token α} (newline : token.kind = .newline)
    (next : nextToken pending.isEmpty before = .ok (some (token, behind)))
    (captures : capturePendingHeredocs (tokens ++ [token]) behind pending =
      .ok (captured, after)) :
    tokenizeFrom pending tokens before = tokenizeFrom [] captured after := by
  rw [tokenizeFrom]
  split
  · rename_i failed
    rw [next] at failed
    cases failed
  · rename_i ended
    rw [next] at ended
    cases ended
  · rename_i found reached read
    rw [next] at read
    cases read
    split
    · split
      · rename_i failed
        rw [captures] at failed
        cases failed
      · rename_i read
        rw [captures] at read
        cases read
        rfl
    · rename_i other
      exact (other newline).elim

end Lexing

end OddJobs.Shell
