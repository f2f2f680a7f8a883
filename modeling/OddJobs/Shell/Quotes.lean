import OddJobs.Shell.Token

/-!
# Quotes, variables and substitutions

How the lexer reads the parts of a command that begin with a quote, a dollar sign or a
backtick.  The end of a substitution is found by counting parentheses outside quotes.
-/

namespace OddJobs.Shell

/-- What is left of the input, and at which byte it begins. -/
structure Cursor (α : Type) where
  pos : Nat
  rest : List α

section Lexing

variable {α : Type} [Letter α]

open Letter

def size (a : α) : Nat := (char a).utf8Size

namespace Cursor

def peekChar (cursor : Cursor α) : Option Char := cursor.rest.head?.map char

def next (cursor : Cursor α) : Cursor α :=
  match cursor.rest with
  | [] => cursor
  | a :: rest => ⟨cursor.pos + size a, rest⟩

end Cursor

/-! ## Substitutions -/

/-- Track quote state during balanced content reading. -/
structure QuoteState where
  inSingleQuote : Bool
  inDoubleQuote : Bool
  escaped : Bool
  deriving DecidableEq, Repr

namespace QuoteState

def new : QuoteState := ⟨false, false, false⟩

/-- Whether the character should be treated literally, and the quote state after it. -/
def process (quotes : QuoteState) (c : Char) : Bool × QuoteState :=
  if quotes.escaped then (true, { quotes with escaped := false })
  else if c = '\\' ∧ ¬quotes.inSingleQuote then (false, { quotes with escaped := true })
  else if c = '\'' ∧ ¬quotes.inDoubleQuote then
    (false, { quotes with inSingleQuote := !quotes.inSingleQuote })
  else if c = '\"' ∧ ¬quotes.inSingleQuote then
    (false, { quotes with inDoubleQuote := !quotes.inDoubleQuote })
  else (quotes.inSingleQuote || quotes.inDoubleQuote, quotes)

end QuoteState

/-- Read content until the closing delimiter, from a depth and a quote state on. -/
def readBalancedFrom (opening closing : Char) (start : Nat) :
    Nat → QuoteState → List α → Nat → List α → Except (LexerError α) (List α × Cursor α)
  | _, _, _, pos, [] => .error (.unterminatedSubstitution ⟨start, pos⟩)
  | depth, quotes, content, pos, a :: rest =>
      let (literal, quotes) := quotes.process (char a)
      let goOn (depth : Nat) :=
        readBalancedFrom opening closing start depth quotes (content ++ [a]) (pos + size a) rest
      if literal then goOn depth
      else if char a = opening then goOn (depth + 1)
      else if char a = closing then
        if depth - 1 = 0 then .ok (content, ⟨pos + size a, rest⟩) else goOn (depth - 1)
      else goOn depth

/-- Read balanced content until the closing delimiter.  Nested parentheses are tracked and
quotes respected. -/
def readBalancedContent (opening closing : Char) (start : Nat) (cursor : Cursor α) :
    Except (LexerError α) (List α × Cursor α) :=
  readBalancedFrom opening closing start 1 .new [] cursor.pos cursor.rest

/-- Read content until the closing backtick, where the letter before may be a backslash. -/
def readBacktickFrom (start : Nat) :
    Bool → List α → Nat → List α → Except (LexerError α) (List α × Cursor α)
  | _, _, pos, [] => .error (.unterminatedSubstitution ⟨start, pos⟩)
  | true, content, pos, a :: rest =>
      readBacktickFrom start false (content ++ [a]) (pos + size a) rest
  | false, content, pos, a :: rest =>
      if char a = '\\' then readBacktickFrom start true (content ++ [a]) (pos + size a) rest
      else if char a = '`' then .ok (content, ⟨pos + size a, rest⟩)
      else readBacktickFrom start false (content ++ [a]) (pos + size a) rest

def readBacktickContent (start : Nat) (cursor : Cursor α) :
    Except (LexerError α) (List α × Cursor α) :=
  readBacktickFrom start false [] cursor.pos cursor.rest

/-! ## Variables -/

def scanVariableName (cursor : Cursor α) : List α × Cursor α :=
  let name := cursor.rest.takeWhile fun a => isValidVariableChar (char a)
  (name, ⟨cursor.pos + (name.map size).sum,
    cursor.rest.dropWhile fun a => isValidVariableChar (char a)⟩)

def scanModifier (start : Nat) :
    Nat → List α → Nat → List α → Except (LexerError α) (List α × Cursor α)
  | _, _, pos, [] => .error (.unterminatedVariable ⟨start, pos⟩)
  | depth, modifier, pos, a :: rest =>
      if char a = '{' then scanModifier start (depth + 1) (modifier ++ [a]) (pos + size a) rest
      else if char a = '}' then
        if depth - 1 = 0 then .ok (modifier, ⟨pos + size a, rest⟩)
        else scanModifier start (depth - 1) (modifier ++ [a]) (pos + size a) rest
      else scanModifier start depth (modifier ++ [a]) (pos + size a) rest

/-- The closing brace after a name, or a modifier and then the brace. -/
def closeBracedVariable (start : Nat) (name : List α) (cursor : Cursor α) :
    Except (LexerError α) ((List α × Option (List α)) × Cursor α) :=
  match cursor.rest with
  | [] => .error (.unterminatedVariable ⟨start, cursor.pos⟩)
  | a :: _ =>
      if char a = '}' then .ok ((name, none), cursor.next)
      else do
        let (modifier, cursor) ← scanModifier start 1 [] cursor.pos cursor.rest
        return ((name, some modifier), cursor)

def parseBracedVariable (start : Nat) (cursor : Cursor α) :
    Except (LexerError α) ((List α × Option (List α)) × Cursor α) :=
  match cursor.rest with
  | [] => .error (.unterminatedVariable ⟨start, start + 2⟩)
  | a :: _ =>
      if char a = '}' then .error (.emptyVariable ⟨start, start + 3⟩)
      else if isSpecialVariable (char a) then closeBracedVariable start [a] cursor.next
      else if isValidVariableStart (char a) then
        let (name, cursor) := scanVariableName cursor
        closeBracedVariable start name cursor
      else .error (.invalidVariableName [a] ⟨cursor.pos, cursor.pos + size a⟩)

/-! ## Single and double quotes -/

def readSingleQuoted (start : Nat) :
    List α → Nat → List α → Except (LexerError α) (List α × Cursor α)
  | _, pos, [] => .error (.unterminatedSingleQuote ⟨start, pos⟩)
  | content, pos, a :: rest =>
      if char a = '\'' then .ok (content, ⟨pos + size a, rest⟩)
      else readSingleQuoted start (content ++ [a]) (pos + size a) rest

/-- What a character after a backslash stands for in a double-quoted string. -/
def unescape (c : Char) : Option Char :=
  if c = '\\' then some '\\'
  else if c = 'n' then some '\n'
  else if c = 't' then some '\t'
  else if c = '\"' then some '\"'
  else if c = '\'' then some '\''
  else if c = '$' then some '$'
  else if c = '`' then some '`'
  else none

/-- Lex what follows a `$` inside a double-quoted string (variable or command substitution). -/
def lexQuotedDollar (start : Nat) (cursor : Cursor α) :
    Except (LexerError α) (WordPart α (List α) × Cursor α) :=
  match cursor.rest with
  | [] => .ok (.literal [plain '$'] .double, cursor)
  | a :: _ =>
      if char a = '(' then do
        let (content, cursor) ← readBalancedContent '(' ')' start cursor.next
        return (.commandSubstitution content false, cursor)
      else if char a = '\x7b' then do
        let ((name, modifier), cursor) ← parseBracedVariable start cursor.next
        return (.var name modifier, cursor)
      else if isValidVariableStart (char a) then
        let (name, cursor) := scanVariableName cursor
        .ok (.var name none, cursor)
      else .ok (.literal [plain '$'] .double, cursor)

def lexQuotedBacktick (start : Nat) (cursor : Cursor α) :
    Except (LexerError α) (WordPart α (List α) × Cursor α) := do
  let (content, cursor) ← readBacktickContent start cursor
  return (.commandSubstitution content true, cursor)

/-! ## What is consumed -/

/-- The letters read from one cursor to another. -/
structure Consumes (text : List α) (before after : Cursor α) : Prop where
  rest_eq : before.rest = text ++ after.rest
  pos_eq : after.pos = before.pos + (text.map size).sum

namespace Consumes

variable {first second : List α} {before middle after : Cursor α}

theorem nothing (cursor : Cursor α) : Consumes [] cursor cursor := ⟨rfl, rfl⟩

theorem trans (former : Consumes first before middle) (latter : Consumes second middle after) :
    Consumes (first ++ second) before after where
  rest_eq := by rw [former.rest_eq, latter.rest_eq, List.append_assoc]
  pos_eq := by
    rw [latter.pos_eq, former.pos_eq, List.map_append, List.sum_append, Nat.add_assoc]

theorem cons {a : α} {rest : List α} {pos : Nat}
    (later : Consumes first ⟨pos + size a, rest⟩ after) :
    Consumes (a :: first) ⟨pos, a :: rest⟩ after where
  rest_eq := congrArg (a :: ·) later.rest_eq
  pos_eq := by rw [later.pos_eq, List.map_cons, List.sum_cons, Nat.add_assoc]

theorem letter (pos : Nat) (a : α) (rest : List α) :
    Consumes [a] ⟨pos, a :: rest⟩ ⟨pos + size a, rest⟩ := (nothing _).cons

theorem step {a : α} {rest : List α} (stands : before.rest = a :: rest) :
    Consumes [a] before ⟨before.pos + size a, rest⟩ := ⟨stands, by simp⟩

theorem next {a : α} {rest : List α} (stands : before.rest = a :: rest) :
    Consumes [a] before before.next := by
  rw [Cursor.next, stands]
  exact step stands

theorem length_eq (consumed : Consumes first before after) :
    before.rest.length = first.length + after.rest.length := by
  rw [consumed.rest_eq, List.length_append]

end Consumes

/-- The second cursor stands behind the first. -/
def Cursor.Advances (before after : Cursor α) : Prop :=
  ∃ a text, Consumes (a :: text) before after

namespace Cursor.Advances

variable {text : List α} {before middle after : Cursor α}

theorem shorter (advances : before.Advances after) : after.rest.length < before.rest.length := by
  obtain ⟨a, text, consumed⟩ := advances
  have counted := consumed.length_eq
  rw [List.length_cons] at counted
  omega

theorem trans (advances : before.Advances middle) (later : Consumes text middle after) :
    before.Advances after := by
  obtain ⟨a, front, consumed⟩ := advances
  exact ⟨a, front ++ text, consumed.trans later⟩

theorem of_consumes (consumed : Consumes text before after) (nonempty : text ≠ []) :
    before.Advances after := by
  obtain ⟨a, front, rfl⟩ := List.exists_cons_of_ne_nil nonempty
  exact ⟨a, front, consumed⟩

end Cursor.Advances

theorem readBalancedFrom_ok {opening closing : Char} {start depth pos : Nat} {quotes : QuoteState}
    {content found rest : List α} {after : Cursor α}
    (read : readBalancedFrom opening closing start depth quotes content pos rest =
      .ok (found, after)) :
    ∃ body last, found = content ++ body ∧ Consumes (body ++ [last]) ⟨pos, rest⟩ after := by
  induction rest generalizing depth quotes content pos with
  | nil => cases read
  | cons a rest ih =>
      have goesOn {depth : Nat} (read : readBalancedFrom opening closing start depth
          (quotes.process (char a)).2 (content ++ [a]) (pos + size a) rest = .ok (found, after)) :
          ∃ body last, found = content ++ body ∧
            Consumes (body ++ [last]) ⟨pos, a :: rest⟩ after := by
        obtain ⟨body, last, rfl, consumed⟩ := ih read
        exact ⟨a :: body, last, List.append_assoc _ _ _, consumed.cons⟩
      rw [readBalancedFrom] at read
      dsimp only at read
      split at read
      · exact goesOn read
      · split at read
        · exact goesOn read
        · split at read
          · split at read
            · cases read
              exact ⟨[], a, (List.append_nil _).symm, Consumes.letter pos a rest⟩
            · exact goesOn read
          · exact goesOn read

theorem readBalancedContent_ok {opening closing : Char} {start : Nat} {content : List α}
    {before after : Cursor α}
    (read : readBalancedContent opening closing start before = .ok (content, after)) :
    ∃ last, Consumes (content ++ [last]) before after := by
  obtain ⟨body, last, rfl, consumed⟩ := readBalancedFrom_ok read
  exact ⟨last, consumed⟩

theorem readBacktickFrom_ok {start pos : Nat} {escaped : Bool} {content found rest : List α}
    {after : Cursor α}
    (read : readBacktickFrom start escaped content pos rest = .ok (found, after)) :
    ∃ body last, found = content ++ body ∧ Consumes (body ++ [last]) ⟨pos, rest⟩ after := by
  induction rest generalizing escaped content pos with
  | nil => cases escaped <;> cases read
  | cons a rest ih =>
      have goesOn {escaped : Bool} (read : readBacktickFrom start escaped (content ++ [a])
          (pos + size a) rest = .ok (found, after)) :
          ∃ body last, found = content ++ body ∧
            Consumes (body ++ [last]) ⟨pos, a :: rest⟩ after := by
        obtain ⟨body, last, rfl, consumed⟩ := ih read
        exact ⟨a :: body, last, List.append_assoc _ _ _, consumed.cons⟩
      cases escaped with
      | true => exact goesOn read
      | false =>
          rw [readBacktickFrom] at read
          split at read
          · exact goesOn read
          · split at read
            · cases read
              exact ⟨[], a, (List.append_nil _).symm, Consumes.letter pos a rest⟩
            · exact goesOn read

theorem readBacktickContent_ok {start : Nat} {content : List α} {before after : Cursor α}
    (read : readBacktickContent start before = .ok (content, after)) :
    ∃ last, Consumes (content ++ [last]) before after := by
  obtain ⟨body, last, rfl, consumed⟩ := readBacktickFrom_ok read
  exact ⟨last, consumed⟩

theorem scanVariableName_consumes (cursor : Cursor α) :
    Consumes (scanVariableName cursor).1 cursor (scanVariableName cursor).2 :=
  ⟨(List.takeWhile_append_dropWhile ..).symm, rfl⟩

theorem scanModifier_ok {start depth pos : Nat} {modifier found rest : List α} {after : Cursor α}
    (read : scanModifier start depth modifier pos rest = .ok (found, after)) :
    ∃ body last, found = modifier ++ body ∧ Consumes (body ++ [last]) ⟨pos, rest⟩ after := by
  induction rest generalizing depth modifier pos with
  | nil => cases read
  | cons a rest ih =>
      have goesOn {depth : Nat} (read : scanModifier start depth (modifier ++ [a])
          (pos + size a) rest = .ok (found, after)) :
          ∃ body last, found = modifier ++ body ∧
            Consumes (body ++ [last]) ⟨pos, a :: rest⟩ after := by
        obtain ⟨body, last, rfl, consumed⟩ := ih read
        exact ⟨a :: body, last, List.append_assoc _ _ _, consumed.cons⟩
      rw [scanModifier] at read
      split at read
      · exact goesOn read
      · split at read
        · split at read
          · cases read
            exact ⟨[], a, (List.append_nil _).symm, Consumes.letter pos a rest⟩
          · exact goesOn read
        · exact goesOn read

theorem closeBracedVariable_ok {start : Nat} {name : List α}
    {found : List α × Option (List α)} {before after : Cursor α}
    (read : closeBracedVariable start name before = .ok (found, after)) :
    ∃ front last, Consumes (front ++ [last]) before after := by
  rw [closeBracedVariable] at read
  split at read
  · cases read
  · rename_i a rest stands
    split at read
    · cases read
      exact ⟨[], a, Consumes.next stands⟩
    · rcases scanned : scanModifier start 1 [] before.pos before.rest with _ | ⟨modifier, cursor⟩
      · rw [scanned] at read
        cases read
      · rw [scanned] at read
        cases read
        obtain ⟨body, last, -, consumed⟩ := scanModifier_ok scanned
        exact ⟨body, last, consumed⟩

theorem parseBracedVariable_ok {start : Nat} {found : List α × Option (List α)}
    {before after : Cursor α} (read : parseBracedVariable start before = .ok (found, after)) :
    ∃ front last, Consumes (front ++ [last]) before after := by
  rw [parseBracedVariable] at read
  split at read
  · cases read
  · rename_i a rest stands
    have goesOn {name text : List α} {cursor : Cursor α} (named : Consumes text before cursor)
        (read : closeBracedVariable start name cursor = .ok (found, after)) :
        ∃ front last, Consumes (front ++ [last]) before after := by
      obtain ⟨front, last, closed⟩ := closeBracedVariable_ok read
      refine ⟨text ++ front, last, ?_⟩
      rw [List.append_assoc]
      exact named.trans closed
    split at read
    · cases read
    · split at read
      · exact goesOn (Consumes.next stands) read
      · split at read
        · exact goesOn (scanVariableName_consumes before) read
        · cases read

theorem readSingleQuoted_ok {start pos : Nat} {content found rest : List α} {after : Cursor α}
    (read : readSingleQuoted start content pos rest = .ok (found, after)) :
    ∃ body last, found = content ++ body ∧ Consumes (body ++ [last]) ⟨pos, rest⟩ after := by
  induction rest generalizing content pos with
  | nil => cases read
  | cons a rest ih =>
      rw [readSingleQuoted] at read
      split at read
      · cases read
        exact ⟨[], a, (List.append_nil _).symm, Consumes.letter pos a rest⟩
      · obtain ⟨body, last, rfl, consumed⟩ := ih read
        exact ⟨a :: body, last, List.append_assoc _ _ _, consumed.cons⟩

theorem lexQuotedDollar_ok {start : Nat} {part : WordPart α (List α)} {before after : Cursor α}
    (read : lexQuotedDollar start before = .ok (part, after)) :
    ∃ text, Consumes text before after := by
  rw [lexQuotedDollar] at read
  split at read
  · cases read
    exact ⟨[], Consumes.nothing _⟩
  · rename_i a rest stands
    split at read
    · rcases content : readBalancedContent '(' ')' start before.next with _ | ⟨body, cursor⟩
      · rw [content] at read
        cases read
      · rw [content] at read
        cases read
        obtain ⟨last, consumed⟩ := readBalancedContent_ok content
        exact ⟨_, (Consumes.next stands).trans consumed⟩
    · split at read
      · rcases parsed : parseBracedVariable start before.next with _ | ⟨⟨name, modifier⟩, cursor⟩
        · rw [parsed] at read
          cases read
        · rw [parsed] at read
          cases read
          obtain ⟨front, last, consumed⟩ := parseBracedVariable_ok parsed
          exact ⟨_, (Consumes.next stands).trans consumed⟩
      · split at read
        · cases read
          exact ⟨_, scanVariableName_consumes before⟩
        · cases read
          exact ⟨[], Consumes.nothing _⟩

theorem lexQuotedBacktick_ok {start : Nat} {part : WordPart α (List α)} {before after : Cursor α}
    (read : lexQuotedBacktick start before = .ok (part, after)) :
    ∃ front last, Consumes (front ++ [last]) before after := by
  rw [lexQuotedBacktick] at read
  rcases content : readBacktickContent start before with _ | ⟨body, cursor⟩
  · rw [content] at read
    cases read
  · rw [content] at read
    cases read
    obtain ⟨last, consumed⟩ := readBacktickContent_ok content
    exact ⟨body, last, consumed⟩

/-! ## Double quotes -/

/-- The parts with the literal read so far: it is left out where it is empty, unless it
stands at the boundary. -/
def flushLiteral (parts : List (WordPart α (List α))) (literal : List α) (boundary : Bool) :
    List (WordPart α (List α)) :=
  if literal.isEmpty && !boundary then parts else parts ++ [.literal literal .double]

def readDoubleQuoted (start : Nat) (parts : List (WordPart α (List α))) (literal : List α)
    (lastWasExpansion : Bool) (lastPos pos : Nat) (rest : List α) :
    Except (LexerError α) (List (WordPart α (List α)) × Cursor α) :=
  match rest with
  | [] => .error (.unterminatedDoubleQuote ⟨start, lastPos⟩)
  | a :: rest =>
      if char a = '\"' then
        .ok (flushLiteral parts literal lastWasExpansion, ⟨pos + size a, rest⟩)
      else if char a = '\\' then
        match rest with
        | [] => .error (.trailingBackslash ⟨pos, pos + 1⟩)
        | b :: rest =>
            let lastPos := pos + size a + size b
            match unescape (char b) with
            | none => .error (.invalidEscape b ⟨pos, lastPos⟩)
            | some c =>
                readDoubleQuoted start parts (literal ++ [plain c]) false lastPos lastPos rest
      else if char a = '$' then
        match _read : lexQuotedDollar pos ⟨pos + size a, rest⟩ with
        | .error error => .error error
        | .ok (part, cursor) =>
            readDoubleQuoted start (flushLiteral parts literal parts.isEmpty ++ [part]) [] true
              (pos + size a) cursor.pos cursor.rest
      else if char a = '`' then
        match _read : lexQuotedBacktick pos ⟨pos + size a, rest⟩ with
        | .error error => .error error
        | .ok (part, cursor) =>
            readDoubleQuoted start (flushLiteral parts literal parts.isEmpty ++ [part]) [] true
              (pos + size a) cursor.pos cursor.rest
      else readDoubleQuoted start parts (literal ++ [a]) false (pos + size a) (pos + size a) rest
termination_by rest.length
decreasing_by
  all_goals simp only [List.length_cons]
  · omega
  · obtain ⟨text, consumed⟩ := lexQuotedDollar_ok _read
    have shorter := consumed.length_eq
    dsimp only at shorter
    omega
  · obtain ⟨front, last, consumed⟩ := lexQuotedBacktick_ok _read
    have shorter := consumed.length_eq
    dsimp only at shorter
    omega
  · omega

theorem readDoubleQuoted_ok {start lastPos pos : Nat} {parts found : List (WordPart α (List α))}
    {literal rest : List α} {lastWasExpansion : Bool} {after : Cursor α}
    (read : readDoubleQuoted start parts literal lastWasExpansion lastPos pos rest =
      .ok (found, after)) :
    ∃ front last, Consumes (front ++ [last]) ⟨pos, rest⟩ after := by
  fun_induction readDoubleQuoted start parts literal lastWasExpansion lastPos pos rest with
  | case1 => cases read
  | case2 parts literal lastWasExpansion lastPos pos a rest closes =>
      cases read
      exact ⟨[], a, Consumes.letter pos a rest⟩
  | case3 => cases read
  | case4 => cases read
  | case5 parts literal lastWasExpansion lastPos pos a notClosing escapes b rest after c means ih =>
      obtain ⟨front, last, consumed⟩ := ih read
      exact ⟨a :: b :: front, last, consumed.cons.cons⟩
  | case6 => cases read
  | case7 parts literal lastWasExpansion lastPos pos a rest _ _ dollar part cursor lexed ih =>
      obtain ⟨text, within⟩ := lexQuotedDollar_ok lexed
      obtain ⟨front, last, consumed⟩ := ih read
      refine ⟨a :: (text ++ front), last, ?_⟩
      rw [List.cons_append, List.append_assoc]
      exact (within.trans consumed).cons
  | case8 => cases read
  | case9 parts literal lastWasExpansion lastPos pos a rest _ _ _ backtick part cursor lexed ih =>
      obtain ⟨text, mark, within⟩ := lexQuotedBacktick_ok lexed
      obtain ⟨front, last, consumed⟩ := ih read
      refine ⟨a :: (text ++ [mark] ++ front), last, ?_⟩
      rw [List.cons_append, List.append_assoc]
      exact (within.trans consumed).cons
  | case10 parts literal lastWasExpansion lastPos pos a rest _ _ _ _ ih =>
      obtain ⟨front, last, consumed⟩ := ih read
      exact ⟨a :: front, last, consumed.cons⟩

end Lexing

end OddJobs.Shell
