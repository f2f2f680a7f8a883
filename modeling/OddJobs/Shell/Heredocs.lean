import Mathlib.Data.List.Chain
import OddJobs.Shell.Redirect

/-!
# Bodies of here-documents

The bodies stand behind the line that announces them.  The lexer hands each token its body, and
the redirection that is read from the token feeds it to the command.
-/

namespace OddJobs.Shell

open Library

/-! ## Documents -/

/-- How a line ends; the last line of the input may have no end. -/
inductive Terminator where
  | lf
  | crlf
  | cr
  | absent
  deriving DecidableEq, Repr

def Terminator.text : Terminator → List Char
  | lf => ['\n']
  | crlf => ['\r', '\n']
  | cr => ['\r']
  | absent => []

structure Line where
  content : List Char
  terminator : Terminator
  deriving DecidableEq, Repr

/-- The content without leading tabs, for `<<-`. -/
def unindented (stripTabs : Bool) (content : List Char) : List Char :=
  if stripTabs then content.dropWhile (· == '\t') else content

namespace Line

def text (line : Line) : List Char := line.content ++ line.terminator.text

/-- The line is one line where the text stands behind it. -/
structure Stands (line : Line) (behind : List Char) : Prop where
  within : ∀ c ∈ line.content, c ≠ '\n' ∧ c ≠ '\r'
  cr : line.terminator = .cr → behind.head? ≠ some '\n'
  absent : line.terminator = .absent → behind = [] ∧ line.content ≠ []

end Line

/-- A here-document: its operator, the lines of its body, and the line that closes it. -/
structure Document where
  stripTabs : Bool
  delimiter : List Char
  quoted : Bool
  body : List Line
  closing : Line
  deriving DecidableEq, Repr

namespace Document

def text (document : Document) : List Char :=
  document.body.flatMap Line.text ++ document.closing.text

/-- The body with every terminator, and for `<<-` without leading tabs. -/
def data (document : Document) : List Char :=
  document.body.flatMap fun line =>
    unindented document.stripTabs line.content ++ line.terminator.text

def operator (document : Document) : Bool × List Char × Bool :=
  (document.stripTabs, document.delimiter, document.quoted)

end Document

def BodyStands (stripTabs : Bool) (delimiter behind : List Char) : List Line → Prop
  | [] => True
  | line :: rest =>
      line.Stands (rest.flatMap Line.text ++ behind) ∧
        unindented stripTabs line.content ≠ delimiter ∧ BodyStands stripTabs delimiter behind rest

/-- The document stands before the text. -/
structure Document.Stands (document : Document) (behind : List Char) : Prop where
  body : BodyStands document.stripTabs document.delimiter (document.closing.text ++ behind)
    document.body
  closing : document.closing.Stands behind
  closes : unindented document.stripTabs document.closing.content = document.delimiter

def DocumentsStand (behind : List Char) : List Document → Prop
  | [] => True
  | document :: rest =>
      document.Stands (rest.flatMap Document.text ++ behind) ∧ DocumentsStand behind rest

/-! ## Reading the lines -/

section Reading

variable {before after : Cursor Char} {text : List Char}

theorem Consumes.of_cons {a : Char} {pos : Nat} {rest : List Char}
    (consumed : Consumes (a :: text) ⟨pos, rest⟩ after) :
    ∃ later, rest = a :: later ∧ Consumes text ⟨pos + size a, later⟩ after := by
  refine ⟨text ++ after.rest, consumed.rest_eq, rfl, ?_⟩
  have moved := consumed.pos_eq
  rw [List.map_cons, List.sum_cons] at moved
  dsimp only at moved ⊢
  omega

theorem Consumes.of_append {first second : List Char}
    (consumed : Consumes (first ++ second) before after) :
    ∃ middle, Consumes first before middle ∧ Consumes second middle after := by
  refine ⟨⟨before.pos + (first.map size).sum, second ++ after.rest⟩, ⟨?_, rfl⟩, rfl, ?_⟩
  · rw [consumed.rest_eq, List.append_assoc]
  · rw [consumed.pos_eq, List.map_append, List.sum_append, Nat.add_assoc]

theorem Consumes.of_nil (consumed : Consumes [] before after) : after = before := by
  obtain ⟨rest, pos⟩ := consumed
  obtain ⟨beforePos, beforeRest⟩ := before
  obtain ⟨afterPos, afterRest⟩ := after
  cases rest
  cases pos
  rfl

theorem readLine_letter {a : Char} {line rest : List Char} {pos : Nat} (noNewline : a ≠ '\n')
    (noCarriage : a ≠ '\r') :
    readLine line pos (a :: rest) = readLine (line ++ [a]) (pos + size a) rest := by
  rw [readLine.eq_def]
  dsimp only
  rw [char_self, if_neg noNewline, if_neg noCarriage]

/-- A terminator is read to its end. -/
theorem readLine_terminator {terminator : Terminator} {line rest : List Char} {pos : Nat}
    (consumed : Consumes terminator.text ⟨pos, rest⟩ after)
    (cr : terminator = .cr → after.rest.head? ≠ some '\n')
    (absent : terminator = .absent → after.rest = []) :
    readLine line pos rest = (line ++ terminator.text, after) := by
  cases terminator with
  | lf =>
      obtain ⟨later, rfl, ends⟩ := consumed.of_cons
      cases ends.of_nil
      rfl
  | crlf =>
      obtain ⟨middle, rfl, more⟩ := consumed.of_cons
      obtain ⟨later, rfl, ends⟩ := more.of_cons
      cases ends.of_nil
      rfl
  | cr =>
      obtain ⟨later, rfl, ends⟩ := consumed.of_cons
      cases ends.of_nil
      have noNewline := cr rfl
      cases later with
      | nil => rfl
      | cons b later =>
          have other : b ≠ '\n' := fun newline => noNewline (congrArg some newline)
          simp [readLine.eq_def, other, Terminator.text]
  | absent =>
      cases consumed.of_nil
      have ended : rest = [] := absent rfl
      simp [ended, readLine.eq_def, Terminator.text]

/-- A line is read to its end. -/
theorem readLine_line {line : Line} (stands : line.Stands after.rest)
    (consumed : Consumes line.text before after) :
    readLine [] before.pos before.rest = (line.text, after) := by
  obtain ⟨content, terminator⟩ := line
  obtain ⟨pos, rest⟩ := before
  have reads (content read rest : List Char) (pos : Nat)
      (within : ∀ c ∈ content, c ≠ '\n' ∧ c ≠ '\r')
      (consumed : Consumes (content ++ terminator.text) ⟨pos, rest⟩ after) :
      readLine read pos rest = (read ++ (content ++ terminator.text), after) := by
    induction content generalizing read pos rest with
    | nil =>
        exact readLine_terminator consumed stands.cr fun absent => (stands.absent absent).1
    | cons a content ih =>
        obtain ⟨later, rfl, more⟩ := consumed.of_cons
        obtain ⟨noNewline, noCarriage⟩ := within a List.mem_cons_self
        rw [readLine_letter noNewline noCarriage,
          ih _ _ _ (fun c member => within c (List.mem_cons_of_mem _ member)) more]
        simp
  exact reads content [] rest pos stands.within consumed

end Reading

section Lines

variable {line : Line} {behind : List Char}

theorem mem_unindented {stripTabs : Bool} {content : List Char} {c : Char}
    (member : c ∈ unindented stripTabs content) : c ∈ content := by
  cases stripTabs with
  | false => exact member
  | true => exact (List.dropWhile_suffix _).mem member

/-- Tabs are stripped from the content of a line only. -/
theorem bodyLine_text (stripTabs : Bool) :
    bodyLine stripTabs line.text =
      unindented stripTabs line.content ++ line.terminator.text := by
  cases stripTabs with
  | false => rfl
  | true =>
      have noTab : line.terminator.text.dropWhile (· == '\t') = line.terminator.text := by
        cases line.terminator <;> rfl
      have strips (content : List Char) :
          (content ++ line.terminator.text).dropWhile (· == '\t') =
            content.dropWhile (· == '\t') ++ line.terminator.text := by
        induction content with
        | nil => exact noTab
        | cons a content ih =>
            cases tab : a == '\t' with
            | true => simp [tab, ih]
            | false => simp [tab]
      exact strips line.content

theorem stripSuffix_append (c : Char) (text : List Char) :
    stripSuffix c (text ++ [c]) = text := by
  simp [stripSuffix]

theorem stripSuffix_other {c : Char} {text : List Char} (other : text.getLast? ≠ some c) :
    stripSuffix c text = text := by
  rw [stripSuffix, if_neg]
  simpa using other

/-- Whether a line is the delimiter is decided by its content. -/
theorem isDelimiter_text (delimiter : List Char) (stripTabs : Bool)
    (stands : line.Stands behind) :
    isDelimiter delimiter stripTabs line.text =
      (unindented stripTabs line.content == delimiter) := by
  have inside (c : Char) (last : (unindented stripTabs line.content).getLast? = some c) :
      c ≠ '\n' ∧ c ≠ '\r' :=
    stands.within c (mem_unindented (List.mem_of_getLast? last))
  have noNewline : (unindented stripTabs line.content).getLast? ≠ some '\n' :=
    fun last => (inside _ last).1 rfl
  have noCarriage : (unindented stripTabs line.content).getLast? ≠ some '\r' :=
    fun last => (inside _ last).2 rfl
  have strips : stripSuffix '\r' (stripSuffix '\n'
      (unindented stripTabs line.content ++ line.terminator.text)) =
        unindented stripTabs line.content := by
    cases line.terminator with
    | lf =>
        rw [Terminator.text, stripSuffix_append, stripSuffix_other noCarriage]
    | crlf =>
        rw [Terminator.text, List.append_cons, stripSuffix_append, stripSuffix_append]
    | cr =>
        rw [Terminator.text, stripSuffix_other (c := '\n') (by simp), stripSuffix_append]
    | absent =>
        rw [Terminator.text, List.append_nil, stripSuffix_other noNewline,
          stripSuffix_other noCarriage]
  have plain (text : List Char) : text.map Letter.char = text := List.map_id text
  rw [isDelimiter, bodyLine_text, strips, plain, plain]

end Lines

/-! ## Reading the bodies -/

section Bodies

variable {before after : Cursor Char}

theorem Line.Stands.text_ne_nil {line : Line} {behind : List Char} (stands : line.Stands behind) :
    line.text ≠ [] := by
  intro empty
  obtain ⟨noContent, noText⟩ := List.append_eq_nil_iff.mp empty
  cases absent : line.terminator with
  | absent => exact (stands.absent absent).2 noContent
  | lf => rw [absent] at noText; cases noText
  | crlf => rw [absent] at noText; cases noText
  | cr => rw [absent] at noText; cases noText

/-- One line of a body is read and looked at. -/
theorem readHeredocBody_line {delimiter read : List Char} {stripTabs : Bool} {line : Line}
    (stands : line.Stands after.rest) (consumed : Consumes line.text before after) :
    readHeredocBody delimiter stripTabs read before =
      if unindented stripTabs line.content = delimiter then some (read, after)
      else
        readHeredocBody delimiter stripTabs
          (read ++ (unindented stripTabs line.content ++ line.terminator.text)) after := by
  have more : before.rest ≠ [] := by
    rw [consumed.rest_eq]
    exact List.append_ne_nil_of_left_ne_nil stands.text_ne_nil _
  rw [readHeredocBody, dif_neg more, readLine_line stands consumed]
  dsimp only
  rw [isDelimiter_text delimiter stripTabs stands, bodyLine_text]
  by_cases ends : unindented stripTabs line.content = delimiter
  · rw [if_pos ends, if_pos (beq_iff_eq.mpr ends)]
  · rw [if_neg ends, if_neg (by simpa using ends)]

/-- The body is read to the line that closes it. -/
theorem readHeredocBody_lines {delimiter read : List Char} {stripTabs : Bool} {closing : Line}
    {body : List Line} (stand : BodyStands stripTabs delimiter (closing.text ++ after.rest) body)
    (closes : unindented stripTabs closing.content = delimiter)
    (stands : closing.Stands after.rest)
    (consumed : Consumes (body.flatMap Line.text ++ closing.text) before after) :
    readHeredocBody delimiter stripTabs read before =
      some (read ++ body.flatMap fun line =>
        unindented stripTabs line.content ++ line.terminator.text, after) := by
  induction body generalizing before read with
  | nil =>
      rw [readHeredocBody_line stands consumed, if_pos closes, List.flatMap_nil, List.append_nil]
  | cons line rest ih =>
      obtain ⟨lineStands, other, restStand⟩ := stand
      rw [List.flatMap_cons, List.append_assoc] at consumed
      obtain ⟨middle, first, later⟩ := consumed.of_append
      have behind : middle.rest = rest.flatMap Line.text ++ (closing.text ++ after.rest) := by
        rw [later.rest_eq, List.append_assoc]
      rw [readHeredocBody_line (behind ▸ lineStands) first, if_neg other, ih restStand later,
        List.flatMap_cons, List.append_assoc]

theorem readHeredocBody_document {document : Document} (stands : document.Stands after.rest)
    (consumed : Consumes document.text before after) :
    readHeredocBody document.delimiter document.stripTabs [] before =
      some (document.data, after) :=
  readHeredocBody_lines stands.body stands.closes stands.closing consumed

end Bodies

/-! ## The line that announces the documents -/

def Token.operator (token : Token Char) : Option (Bool × List Char × Bool) :=
  match token.kind with
  | .hereDoc _ stripTabs delimiter _ quoted => some (stripTabs, delimiter, quoted)
  | _ => none

def fill : List (Token Char) → List Document → List (Token Char)
  | [], _ => []
  | token :: line, documents =>
      match token.operator, documents with
      | some _, document :: rest => token.withBody document.data :: fill line rest
      | _, _ => token :: fill line documents

theorem fill_none {token : Token Char} (plain : token.operator = none) (line : List (Token Char))
    (documents : List Document) :
    fill (token :: line) documents = token :: fill line documents := by
  rw [fill.eq_def]
  simp [plain]

theorem fill_some {token : Token Char} {operator : Bool × List Char × Bool}
    (announces : token.operator = some operator) (line : List (Token Char)) (document : Document)
    (documents : List Document) :
    fill (token :: line) (document :: documents) =
      token.withBody document.data :: fill line documents := by
  rw [fill.eq_def]
  simp [announces]

/-- The documents that the tokens of a line announce, from the index of its first token. -/
def announced (index : Nat) : List (Token Char) → List (PendingHereDoc Char)
  | [] => []
  | token :: line =>
      match token.operator with
      | none => announced (index + 1) line
      | some (stripTabs, delimiter, _) =>
          ⟨delimiter, stripTabs, index, token.span⟩ :: announced (index + 1) line

theorem pending_none {token : Token Char} (plain : token.operator = none)
    (pending : List (PendingHereDoc Char)) (tokens : List (Token Char)) :
    token.pending pending tokens = pending := by
  obtain ⟨kind, span⟩ := token
  cases kind with
  | hereDoc => cases plain
  | _ => rfl

theorem pending_some {token : Token Char} {stripTabs quoted : Bool} {delimiter : List Char}
    (announces : token.operator = some (stripTabs, delimiter, quoted))
    (pending : List (PendingHereDoc Char)) (tokens : List (Token Char)) :
    token.pending pending tokens =
      pending ++ [⟨delimiter, stripTabs, tokens.length, token.span⟩] := by
  obtain ⟨kind, span⟩ := token
  cases kind with
  | hereDoc =>
      cases announces
      rfl
  | _ => cases announces

structure Lexer where
  pending : List (PendingHereDoc Char)
  tokens : List (Token Char)
  cursor : Cursor Char

namespace Lexer

def new (input : List Char) : Lexer := ⟨[], [], ⟨0, input⟩⟩

def tokenize (lexer : Lexer) : Except (LexerError Char) (List (Token Char)) :=
  tokenizeFrom lexer.pending lexer.tokens lexer.cursor

inductive Reads : Lexer → List (Token Char) → Lexer → Prop
  | nothing (lexer : Lexer) : Reads lexer [] lexer
  | token {before later : Lexer} {token : Token Char} {line : List (Token Char)}
      (after : Cursor Char)
      (next : nextToken before.pending.isEmpty before.cursor = .ok (some (token, after)))
      (inLine : token.kind ≠ .newline)
      (rest : Reads ⟨token.pending before.pending before.tokens, before.tokens ++ [token], after⟩
        line later) :
      Reads before (token :: line) later

/-- The lexer ends a line: it reads a newline and captures the bodies that are pending. -/
structure EndsLine (before : Lexer) (newline : Token Char) (behind : Cursor Char)
    (after : Lexer) : Prop where
  next : nextToken before.pending.isEmpty before.cursor = .ok (some (newline, behind))
  isNewline : newline.kind = .newline
  captured : capturePendingHeredocs (before.tokens ++ [newline]) behind before.pending =
    .ok (after.tokens, after.cursor)
  pending : after.pending = []

variable {before after : Lexer} {line : List (Token Char)}

/-- What has been read of a line is what the lexer goes on from. -/
theorem Reads.tokenize (reads : before.Reads line after) : before.tokenize = after.tokenize := by
  induction reads with
  | nothing => rfl
  | token after next inLine rest ih =>
      rw [← ih]
      exact tokenizeFrom_token inLine next

theorem EndsLine.tokenize {newline : Token Char} {behind : Cursor Char}
    (ends : before.EndsLine newline behind after) : before.tokenize = after.tokenize := by
  obtain ⟨pending, tokens, cursor⟩ := after
  obtain ⟨next, isNewline, captured, none⟩ := ends
  cases none
  exact tokenizeFrom_newline isNewline next captured

/-- The pending documents are those that the line announces. -/
theorem Reads.announces (reads : before.Reads line after) :
    after.tokens = before.tokens ++ line ∧
      after.pending = before.pending ++ announced before.tokens.length line := by
  induction reads with
  | nothing => exact ⟨(List.append_nil _).symm, (List.append_nil _).symm⟩
  | @token before later token line after next inLine rest ih =>
      obtain ⟨tokens, pending⟩ := ih
      refine ⟨by rw [tokens, List.append_assoc, List.singleton_append], ?_⟩
      rw [pending, List.length_append, List.length_singleton, announced]
      cases announces : token.operator with
      | none => rw [pending_none announces]
      | some operator =>
          obtain ⟨stripTabs, delimiter, quoted⟩ := operator
          rw [pending_some announces, List.append_assoc, List.singleton_append]

end Lexer

theorem modify_behind {A : Type} (front : List A) (item : A) (rest : List A) (change : A → A) :
    (front ++ item :: rest).modify front.length change = front ++ change item :: rest := by
  induction front with
  | nil => rfl
  | cons first front ih => exact congrArg (first :: ·) ih

/-- Every document is captured by the token that announces it. -/
theorem capturePendingHeredocs_documents {front line back : List (Token Char)}
    {documents : List Document} {before after : Cursor Char}
    (announces : line.filterMap Token.operator = documents.map Document.operator)
    (stand : DocumentsStand after.rest documents)
    (consumed : Consumes (documents.flatMap Document.text) before after) :
    capturePendingHeredocs (front ++ (line ++ back)) before (announced front.length line) =
      .ok (front ++ (fill line documents ++ back), after) := by
  induction line generalizing front documents before with
  | nil =>
      cases documents with
      | nil =>
          cases consumed.of_nil
          rfl
      | cons document documents => cases announces
  | cons token line ih =>
      cases operator : token.operator with
      | none =>
          rw [List.filterMap_cons, operator] at announces
          have later := @ih (front ++ [token]) _ _ announces stand consumed
          rw [List.length_append, List.append_assoc, List.append_assoc] at later
          rw [announced, operator, fill_none operator]
          exact later
      | some announces' =>
          rw [List.filterMap_cons, operator] at announces
          cases documents with
          | nil => cases announces
          | cons document documents =>
              obtain ⟨same, rest⟩ := List.cons.inj announces
              obtain ⟨first, others⟩ := stand
              obtain ⟨middle, reads, later⟩ := consumed.of_append
              have captured := readHeredocBody_document (later.rest_eq ▸ first) reads
              have goesOn := @ih (front ++ [token.withBody document.data]) _ _ rest others later
              rw [List.length_append, List.append_assoc, List.append_assoc] at goesOn
              rw [announced, operator, fill_some operator, same, capturePendingHeredocs]
              dsimp only [Document.operator]
              rw [captured]
              dsimp only
              rw [List.cons_append, modify_behind]
              exact goesOn

/-! ## Tabs that are stripped twice -/

/-- No line of the text begins with a tab. -/
structure Untabbed (text : List Char) : Prop where
  head : text.head? ≠ some '\t'
  lines : text.IsChain fun a b => ¬(a = '\n' ∧ b = '\t')

/-- The text survives being cut into lines: it does not end with LF, and has no CRLF. -/
structure Rejoins (text : List Char) : Prop where
  last : text.getLast? ≠ some '\n'
  carriages : text.IsChain fun a b => ¬(a = '\r' ∧ b = '\n')

section Stripping

variable {line rest : List Char}

/-- A line without its newline, and without a carriage return before it. -/
def chopped (line : List Char) : List Char :=
  if line.getLast? = some '\r' then line.dropLast else line

theorem ofText_nil : Lines.ofText [] = [] := rfl

theorem ofText_line (inLine : '\n' ∉ line) :
    Lines.ofText (line ++ '\n' :: rest) = chopped line :: Lines.ofText rest := by
  rw [Lines.ofText, Lines.lines_cons_line inLine, List.map_cons]
  simp [chopped, Lines.ofText, Lines.stripEnd]

theorem ofText_last (inLine : '\n' ∉ line) (nonempty : line ≠ []) :
    Lines.ofText line = [line] := by
  have noNewline : line.getLast? ≠ some '\n' := fun last => inLine (List.mem_of_getLast? last)
  rw [Lines.ofText, Lines.lines_unterminated nonempty inLine]
  simp [Lines.stripEnd, noNewline]

theorem ofText_ne_nil (nonempty : rest ≠ []) : Lines.ofText rest ≠ [] := by
  rw [Lines.ofText, ne_eq, List.map_eq_nil_iff]
  exact Lines.lines_ne_nil nonempty

def untabbed (line : List Char) : List Char :=
  if line.head? = some '\t' then line.tail else line

theorem stripTabs_last (inLine : '\n' ∉ line) (nonempty : line ≠ []) :
    stripTabs line = untabbed line := by
  rw [stripTabs, ofText_last inLine nonempty]
  exact List.intercalate_singleton

theorem stripTabs_line (inLine : '\n' ∉ line) (more : rest ≠ []) :
    stripTabs (line ++ '\n' :: rest) = untabbed (chopped line) ++ '\n' :: stripTabs rest := by
  rw [stripTabs, ofText_line inLine, List.map_cons,
    List.intercalate_cons_of_ne_nil (by simpa using ofText_ne_nil more)]
  simp [stripTabs, untabbed]

theorem stripTabs_end (inLine : '\n' ∉ line) :
    stripTabs (line ++ ['\n']) = untabbed (chopped line) := by
  rw [stripTabs, ofText_line inLine, ofText_nil]
  exact List.intercalate_singleton

theorem chopped_length (line : List Char) : (chopped line).length ≤ line.length := by
  rw [chopped]
  split
  · rw [List.length_dropLast]
    omega
  · exact Nat.le_refl _

/-- Every text is its first line and what is behind it. -/
theorem exists_line (text : List Char) :
    '\n' ∉ text ∨ ∃ line rest, text = line ++ '\n' :: rest ∧ '\n' ∉ line := by
  by_cases ends : '\n' ∈ text
  · obtain ⟨line, rest, is, inLine⟩ := List.eq_append_cons_of_mem ends
    exact Or.inr ⟨line, rest, is, inLine⟩
  · exact Or.inl ends

theorem chain_of_inLine (inLine : '\n' ∉ line) :
    line.IsChain fun a b => ¬(a = '\r' ∧ b = '\n') := by
  refine List.Pairwise.isChain (List.pairwise_iff_forall_sublist.mpr ?_)
  rintro a b sublist ⟨-, rfl⟩
  exact inLine (sublist.mem (by simp))

theorem rejoins_line (inLine : '\n' ∉ line) (more : rest ≠ []) :
    Rejoins (line ++ '\n' :: rest) ↔ line.getLast? ≠ some '\r' ∧ Rejoins rest := by
  have last : (line ++ '\n' :: rest).getLast? = rest.getLast? := by
    rw [List.append_cons, List.getLast?_append_of_ne_nil _ more]
  have begins : ∀ y ∈ ('\n' :: rest).head?, y = '\n' := by simp
  constructor
  · rintro ⟨noNewline, carriages⟩
    obtain ⟨-, behind, between⟩ := List.isChain_append.mp carriages
    refine ⟨fun ends => between '\r' ends '\n' rfl ⟨rfl, rfl⟩, last ▸ noNewline, ?_⟩
    exact (List.isChain_cons.mp behind).2
  · rintro ⟨noCarriage, noNewline, carriages⟩
    refine ⟨last ▸ noNewline, List.isChain_append.mpr ⟨chain_of_inLine inLine, ?_, ?_⟩⟩
    · refine List.isChain_cons.mpr ⟨?_, carriages⟩
      rintro y - ⟨same, -⟩
      cases same
    · rintro x ends y - ⟨rfl, -⟩
      exact noCarriage ends

theorem Untabbed.of_line (free : Untabbed (line ++ '\n' :: rest)) :
    line.head? ≠ some '\t' ∧ Untabbed rest := by
  obtain ⟨-, behind, -⟩ := List.isChain_append.mp free.lines
  obtain ⟨next, later⟩ := List.isChain_cons.mp behind
  refine ⟨?_, fun tab => next '\t' tab ⟨rfl, rfl⟩, later⟩
  intro tab
  refine free.head ?_
  rw [List.head?_append, tab]
  rfl

theorem chopped_eq_self (noCarriage : line.getLast? ≠ some '\r') : chopped line = line :=
  if_neg noCarriage

theorem chopped_shorter (carriage : line.getLast? = some '\r') :
    (chopped line).length < line.length := by
  have nonempty : line ≠ [] := by
    rintro rfl
    cases carriage
  have positive := List.length_pos_iff.mpr nonempty
  rw [chopped, if_pos carriage, List.length_dropLast]
  omega

theorem untabbed_length (line : List Char) : (untabbed line).length ≤ line.length := by
  rw [untabbed]
  split
  · rw [List.length_tail]
    omega
  · exact Nat.le_refl _

theorem untabbed_eq_self (noTab : line.head? ≠ some '\t') : untabbed line = line := if_neg noTab

/-- The text stays as it is where it survives being cut into lines, and gets shorter elsewhere. -/
theorem stripTabs_cases {text : List Char} (free : Untabbed text) :
    stripTabs text = text ∧ Rejoins text ∨
      (stripTabs text).length < text.length ∧ ¬Rejoins text := by
  induction counted : text.length using Nat.strong_induction_on generalizing text with
  | h length ih =>
      rcases exists_line text with inLine | ⟨line, rest, rfl, inLine⟩
      · refine Or.inl ⟨?_, fun last => inLine (List.mem_of_getLast? last), chain_of_inLine inLine⟩
        by_cases nonempty : text = []
        · rw [nonempty]
          rfl
        · rw [stripTabs_last inLine nonempty, untabbed_eq_self free.head]
      · obtain ⟨noTab, later⟩ := free.of_line
        have chops := (untabbed_length (chopped line)).trans (chopped_length line)
        by_cases more : rest = []
        · refine Or.inr ⟨?_, fun kept => kept.last (by simp [more])⟩
          rw [more, stripTabs_end inLine, ← counted]
          simp only [List.length_append, List.length_cons]
          omega
        · have shorter : rest.length < length := by
            rw [← counted, List.length_append, List.length_cons]
            omega
          rw [stripTabs_line inLine more, rejoins_line inLine more]
          have known := ih rest.length shorter later rfl
          by_cases carriage : line.getLast? = some '\r'
          · refine Or.inr ⟨?_, fun kept => kept.1 carriage⟩
            have first := chopped_shorter carriage
            have second := untabbed_length (chopped line)
            have rests : (stripTabs rest).length ≤ rest.length :=
              known.elim (fun same => (congrArg List.length same.1).le) fun less => less.1.le
            rw [← counted]
            simp only [List.length_append, List.length_cons]
            omega
          · rw [chopped_eq_self carriage, untabbed_eq_self noTab]
            rcases known with ⟨same, kept⟩ | ⟨less, lost⟩
            · exact Or.inl ⟨by rw [same], carriage, kept⟩
            · refine Or.inr ⟨?_, fun kept => lost kept.2⟩
              rw [← counted]
              simp only [List.length_append, List.length_cons]
              omega

/-- Stripping tabs where there are none keeps the texts that survive being cut into lines. -/
theorem stripTabs_eq_self_iff {text : List Char} (free : Untabbed text) :
    stripTabs text = text ↔ Rejoins text := by
  rcases stripTabs_cases free with ⟨same, kept⟩ | ⟨less, lost⟩
  · exact iff_of_true same kept
  · refine iff_of_false (fun same => ?_) lost
    rw [same] at less
    exact Nat.lt_irrefl _ less

end Stripping

theorem unindented_head (content : List Char) :
    (unindented true content).head? ≠ some '\t' := by
  intro tab
  have first := List.head?_dropWhile_not (· == '\t') content
  rw [unindented, if_pos rfl] at tab
  rw [tab] at first
  cases first

theorem Untabbed.nil : Untabbed [] := ⟨by simp, List.IsChain.nil⟩

/-- A letter that is no tab goes before a text that has none. -/
theorem Untabbed.cons {c : Char} {text : List Char} (noTab : c ≠ '\t') (free : Untabbed text) :
    Untabbed (c :: text) := by
  refine ⟨fun tab => noTab (Option.some.inj tab), List.isChain_cons.mpr ⟨?_, free.lines⟩⟩
  rintro y next ⟨-, rfl⟩
  exact free.head next

theorem Untabbed.terminator {text : List Char} (terminator : Terminator) (free : Untabbed text) :
    Untabbed (terminator.text ++ text) := by
  cases terminator with
  | lf => exact free.cons (by decide)
  | crlf => exact (free.cons (c := '\n') (by decide)).cons (by decide)
  | cr => exact free.cons (by decide)
  | absent => exact free

theorem Untabbed.line {line text : List Char} (noTab : line.head? ≠ some '\t')
    (inLine : '\n' ∉ line) (free : Untabbed text) : Untabbed (line ++ text) := by
  constructor
  · cases line with
    | nil => exact free.head
    | cons c line => exact noTab
  · refine List.isChain_append.mpr ⟨?_, free.lines, ?_⟩
    · refine List.Pairwise.isChain (List.pairwise_iff_forall_sublist.mpr ?_)
      rintro a b sublist ⟨rfl, -⟩
      exact inLine (sublist.mem (by simp))
    · rintro a last b - ⟨rfl, -⟩
      exact inLine (List.mem_of_getLast? last)

/-- The data of a `<<-` document has been stripped of its tabs. -/
theorem data_untabbed {delimiter behind : List Char} {body : List Line}
    (stand : BodyStands true delimiter behind body) :
    Untabbed (body.flatMap fun line => unindented true line.content ++ line.terminator.text) := by
  induction body with
  | nil => exact Untabbed.nil
  | cons line rest ih =>
      obtain ⟨lineStands, -, restStand⟩ := stand
      rw [List.flatMap_cons, List.append_assoc]
      refine Untabbed.line (unindented_head _) ?_ ((ih restStand).terminator line.terminator)
      exact fun newline => (lineStands.within _ (mem_unindented newline)).1 rfl

/-! ## What the command reads -/

section Feeding

variable {Io : Type} (host : Host (ExecError Io)) (directory : Directory Io)

def Redirection.isForInput : Redirection CommandList → Bool
  | .input .. | .hereDoc .. | .hereString .. => true
  | .duplicate source _ _ => source == 0
  | .output .. | .both .. => false

/-- The redirection feeds the data to the command: alone, and among others of which no later
one is for the standard input. -/
structure Feeds (redirection : Redirection CommandList) (data : List Char) : Prop where
  alone : ∀ process context,
    applyRedirections host directory process [redirection] context =
      (.ok ({ process with stdin := .piped }, some data), context)
  among : ∀ front behind process context applied after,
    (∀ later ∈ behind, later.isForInput = false) →
      applyRedirections host directory process (front ++ redirection :: behind) context =
        (.ok applied, after) →
      applied.2 = some data

variable {host directory}

theorem readRedirection_stdinData {configs read : StdioConfigs}
    {redirection : Redirection CommandList} {context after : Context}
    (other : redirection.isForInput = false)
    (ran : readRedirection host configs redirection context = (.ok read, after)) :
    read.stdinData = configs.stdinData := by
  cases redirection with
  | input | hereDoc | hereString => cases other
  | output fd target append =>
      obtain ⟨path, middle, -, continues⟩ := Program.bind_eq_ok.mp ran
      split at continues
      · cases continues
        rfl
      · split at continues
        · cases continues
          rfl
        · cases continues
  | both append target =>
      obtain ⟨path, middle, -, continues⟩ := Program.bind_eq_ok.mp ran
      cases continues
      rfl
  | duplicate source target output =>
      cases target with
      | close =>
          rw [readRedirection] at ran
          repeat' split at ran
          all_goals
            cases ran
            rfl
      | fd fd =>
          rw [readRedirection] at ran
          repeat' split at ran
          all_goals
            cases ran
            rfl

theorem readRedirections_stdinData {configs read : StdioConfigs}
    {redirections : List (Redirection CommandList)} {context after : Context}
    (other : ∀ later ∈ redirections, later.isForInput = false)
    (ran : readRedirections host configs redirections context = (.ok read, after)) :
    read.stdinData = configs.stdinData := by
  induction redirections generalizing configs context with
  | nil =>
      cases ran
      rfl
  | cons redirection rest ih =>
      obtain ⟨middle, between, first, later⟩ := Program.bind_eq_ok.mp ran
      rw [ih (fun each member => other each (List.mem_cons_of_mem _ member)) later,
        readRedirection_stdinData (other _ List.mem_cons_self) first]

theorem readRedirections_append (configs : StdioConfigs)
    (front behind : List (Redirection CommandList)) :
    readRedirections host configs (front ++ behind) =
      readRedirections host configs front >>= fun configs =>
        readRedirections host configs behind := by
  induction front generalizing configs with
  | nil => rfl
  | cons redirection rest ih =>
      rw [List.cons_append, readRedirections, readRedirections, Program.bind_assoc]
      simp only [ih]

/-- The data of a here-document whose delimiter is quoted. -/
theorem readRedirection_quoted (configs : StdioConfigs) (fd : Option Nat)
    (delimiter body : List Char) (strip : Bool) :
    readRedirection host configs (.hereDoc fd delimiter body strip true) =
      pure { configs with
        stdin := .pipedData
        stdinData := some (if strip then stripTabs body else body) } := rfl

theorem feeds_quoted {fd : Option Nat} {delimiter body data : List Char} {strip : Bool} :
    Feeds host directory (.hereDoc fd delimiter body strip true) data ↔
      (if strip then stripTabs body else body) = data := by
  constructor
  · intro feeds
    have applied := feeds.alone ⟨.inherit, .inherit, .inherit, []⟩ ⟨fun _ => none, 0, []⟩
    exact Option.some.inj (congrArg Prod.snd (Except.ok.inj (congrArg Prod.fst applied)))
  · rintro rfl
    refine ⟨fun process context => rfl, ?_⟩
    intro front behind process context applied after other ran
    obtain ⟨configs, middle, read, continues⟩ := Program.bind_eq_ok.mp ran
    obtain ⟨process', between, -, opens⟩ := Program.bind_eq_ok.mp continues
    obtain ⟨process'', last, -, returns⟩ := Program.bind_eq_ok.mp opens
    cases returns
    rw [readRedirections_append] at read
    obtain ⟨before, reached, -, later⟩ := Program.bind_eq_ok.mp read
    rw [readRedirections, readRedirection_quoted, Program.pure_bind] at later
    exact readRedirections_stdinData other later

end Feeding

/-! ## The main result -/

section Main

variable {Io : Type} (host : Host (ExecError Io)) (directory : Directory Io)

def Token.announces (token : Token Char) : Bool := token.operator.isSome

/-- The redirection that is parsed from the token feeds the data to the command. -/
def Token.Feeds (token : Token Char) (data : List Char) : Prop :=
  ∃ redirection, (∀ tokens, parseRedirection token.kind tokens = .ok (redirection, tokens)) ∧
    Shell.Feeds host directory redirection data

/-- The line that the lexer has read goes on behind its documents, and what has been read of it
is what it was but for the bodies; every document whose delimiter is quoted feeds its data to
the command. -/
structure Delivered (before reached : Lexer) (line : List (Token Char)) (newline : Token Char)
    (behind last : Cursor Char) (documents : List Document) (filled : List (Token Char)) :
    Prop where
  ends : reached.EndsLine newline behind ⟨[], before.tokens ++ (filled ++ [newline]), last⟩
  tokenize : before.tokenize = Lexer.tokenize ⟨[], before.tokens ++ (filled ++ [newline]), last⟩
  line : List.Forall₂ (fun token changed => ∃ body, changed = token.withBody body) line filled
  feeds : List.Forall₂ (fun token document =>
      document.quoted = true → token.Feeds host directory document.data)
    (filled.filter Token.announces) documents

variable {host directory} {line : List (Token Char)} {documents : List Document}

theorem withBody_none {token : Token Char} (plain : token.operator = none) (body : List Char) :
    token.withBody body = token := by
  obtain ⟨kind, span⟩ := token
  cases kind with
  | hereDoc => cases plain
  | _ => rfl

theorem withBody_some {token : Token Char} {stripTabs quoted : Bool} {delimiter : List Char}
    (announces : token.operator = some (stripTabs, delimiter, quoted)) (body : List Char) :
    ∃ fd, (token.withBody body).kind = .hereDoc fd stripTabs delimiter body quoted := by
  obtain ⟨kind, span⟩ := token
  cases kind with
  | hereDoc fd =>
      cases announces
      exact ⟨fd, rfl⟩
  | _ => cases announces

theorem announces_of_kind {token : Token Char} {fd : Option Nat} {stripTabs quoted : Bool}
    {delimiter body : List Char}
    (kind : token.kind = .hereDoc fd stripTabs delimiter body quoted) :
    token.announces = true := by
  rw [Token.announces, Token.operator, kind]
  rfl

/-- Only the bodies of a line change. -/
theorem fill_line (announces : line.filterMap Token.operator = documents.map Document.operator) :
    List.Forall₂ (fun token changed => ∃ body, changed = token.withBody body) line
      (fill line documents) := by
  induction line generalizing documents with
  | nil => exact List.Forall₂.nil
  | cons token line ih =>
      cases operator : token.operator with
      | none =>
          rw [List.filterMap_cons, operator] at announces
          rw [fill_none operator]
          exact List.Forall₂.cons ⟨[], (withBody_none operator []).symm⟩ (ih announces)
      | some said =>
          rw [List.filterMap_cons, operator] at announces
          cases documents with
          | nil => cases announces
          | cons document documents =>
              rw [fill_some operator]
              exact List.Forall₂.cons ⟨document.data, rfl⟩ (ih (List.cons.inj announces).2)

/-- The token feeds the data of its document where that survives being stripped again. -/
theorem feeds_document_iff {token : Token Char} {document : Document} {behind : List Char}
    (stands : document.Stands behind) (announces : token.operator = some document.operator) :
    (document.quoted = true →
        (token.withBody document.data).Feeds host directory document.data) ↔
      (document.quoted = true → document.stripTabs = true → Rejoins document.data) := by
  refine forall_congr' fun quoted => ?_
  obtain ⟨fd, kind⟩ := withBody_some announces document.data
  rw [quoted] at kind
  have parsed (tokens : Tokens) :
      parseRedirection (token.withBody document.data).kind tokens =
        .ok (.hereDoc fd document.delimiter document.data document.stripTabs true, tokens) := by
    rw [kind]
    rfl
  have parses : (token.withBody document.data).Feeds host directory document.data ↔
      (if document.stripTabs then stripTabs document.data else document.data) =
        document.data := by
    rw [← @feeds_quoted Io host directory fd document.delimiter]
    constructor
    · rintro ⟨redirection, parses, feeds⟩
      have same := (parses ⟨0, none, []⟩).symm.trans (parsed ⟨0, none, []⟩)
      cases same
      exact feeds
    · exact fun feeds => ⟨_, parsed, feeds⟩
  rw [parses]
  cases strips : document.stripTabs with
  | false => simp
  | true =>
      have body := stands.body
      rw [strips] at body
      have free := data_untabbed body
      rw [Document.data, strips]
      simpa using stripTabs_eq_self_iff free

/-- Each token feeds the data of its document where each survives being stripped again. -/
theorem feeds_documents_iff {behind : List Char}
    (announces : line.filterMap Token.operator = documents.map Document.operator)
    (stand : DocumentsStand behind documents) :
    List.Forall₂ (fun token document =>
        document.quoted = true → token.Feeds host directory document.data)
      ((fill line documents).filter Token.announces) documents ↔
      ∀ document ∈ documents,
        document.quoted = true → document.stripTabs = true → Rejoins document.data := by
  induction line generalizing documents with
  | nil =>
      cases documents with
      | nil => exact iff_of_true List.Forall₂.nil (by simp)
      | cons document documents => cases announces
  | cons token line ih =>
      cases operator : token.operator with
      | none =>
          rw [List.filterMap_cons, operator] at announces
          have silent : token.announces = false := by rw [Token.announces, operator]; rfl
          rw [fill_none operator, List.filter_cons_of_neg (by rw [silent]; decide)]
          exact ih announces stand
      | some said =>
          rw [List.filterMap_cons, operator] at announces
          cases documents with
          | nil => cases announces
          | cons document documents =>
              obtain ⟨same, rest⟩ := List.cons.inj announces
              obtain ⟨first, others⟩ := stand
              obtain ⟨fd, kind⟩ := withBody_some (operator.trans (congrArg some same)) document.data
              rw [fill_some operator, List.filter_cons_of_pos (announces_of_kind kind),
                List.forall₂_cons, List.forall_mem_cons, ih rest others,
                feeds_document_iff first (operator.trans (congrArg some same))]

/-- In a command line that is followed by the documents it announces, each with the line that
closes it, every document whose delimiter is quoted reaches its command as it stands, and nothing
else is taken, unless a `<<-` document ends with LF or has a line that ends with CRLF. -/
theorem hereDocs_delivered_iff {before reached : Lexer} {newline : Token Char}
    {behind last : Cursor Char} (starts : before.pending = [])
    (reads : before.Reads line reached)
    (next : nextToken reached.pending.isEmpty reached.cursor = .ok (some (newline, behind)))
    (isNewline : newline.kind = .newline)
    (announces : line.filterMap Token.operator = documents.map Document.operator)
    (consumed : Consumes (documents.flatMap Document.text) behind last)
    (stand : DocumentsStand last.rest documents) :
    (∃ filled, Delivered host directory before reached line newline behind last documents
        filled) ↔
      ∀ document ∈ documents,
        document.quoted = true → document.stripTabs = true → Rejoins document.data := by
  obtain ⟨tokens, pending⟩ := reads.announces
  rw [starts, List.nil_append] at pending
  have captured : capturePendingHeredocs (reached.tokens ++ [newline]) behind reached.pending =
      .ok (before.tokens ++ (fill line documents ++ [newline]), last) := by
    rw [tokens, pending, List.append_assoc]
    exact capturePendingHeredocs_documents announces stand consumed
  have ends : reached.EndsLine newline behind
      ⟨[], before.tokens ++ (fill line documents ++ [newline]), last⟩ :=
    ⟨next, isNewline, captured, rfl⟩
  rw [← feeds_documents_iff announces stand]
  constructor
  · rintro ⟨filled, delivered⟩
    have same := delivered.ends.captured.symm.trans captured
    have filledIs : filled = fill line documents := by
      have all := congrArg Prod.fst (Except.ok.inj same)
      exact List.append_cancel_right (List.append_cancel_left all)
    rw [← filledIs]
    exact delivered.feeds
  · intro feeds
    exact ⟨fill line documents, ends, reads.tokenize.trans ends.tokenize, fill_line announces,
      feeds⟩

end Main

/-! ## Two scripts -/

/-- A line with two documents: the second is stripped of its tabs, and its line ends with CR. -/
theorem hereDocs_delivered_two : ∃ reached line newline behind documents,
    (Lexer.new "cat <<'A' 3<<-'B'\n\tx\r\nA\n\ty\rB".toList).Reads line reached ∧
      documents.map Document.data = ["\tx\r\n".toList, "y\r".toList] ∧
      ∃ filled, Delivered quietHost openDirectory
        (Lexer.new "cat <<'A' 3<<-'B'\n\tx\r\nA\n\ty\rB".toList) reached line newline behind
        ⟨28, []⟩ documents filled := by
  let first : Document := ⟨false, ['A'], true, [⟨['\t', 'x'], .crlf⟩], ⟨['A'], .lf⟩⟩
  let second : Document := ⟨true, ['B'], true, [⟨['\t', 'y'], .cr⟩], ⟨['B'], .absent⟩⟩
  let one : Token Char := ⟨.hereDoc none false ['A'] [] true, ⟨4, 9⟩⟩
  let two : Token Char := ⟨.hereDoc (some 3) true ['B'] [] true, ⟨10, 17⟩⟩
  let line : List (Token Char) := [⟨.word "cat".toList, ⟨0, 3⟩⟩, one, two]
  let reached : Lexer := ⟨announced 0 line, line, ⟨17, "\n\tx\r\nA\n\ty\rB".toList⟩⟩
  have reads : (Lexer.new "cat <<'A' 3<<-'B'\n\tx\r\nA\n\ty\rB".toList).Reads line reached := by
    refine Lexer.Reads.token ⟨3, " <<'A' 3<<-'B'\n\tx\r\nA\n\ty\rB".toList⟩
      (by with_unfolding_all rfl) (by decide) ?_
    refine Lexer.Reads.token ⟨9, " 3<<-'B'\n\tx\r\nA\n\ty\rB".toList⟩
      (by with_unfolding_all rfl) (by decide) ?_
    refine Lexer.Reads.token ⟨17, "\n\tx\r\nA\n\ty\rB".toList⟩
      (by with_unfolding_all rfl) (by decide) ?_
    exact Lexer.Reads.nothing reached
  have stand : DocumentsStand [] [first, second] := by
    refine ⟨⟨⟨⟨?_, ?_, ?_⟩, ?_, trivial⟩, ⟨?_, ?_, ?_⟩, rfl⟩,
      ⟨⟨⟨?_, ?_, ?_⟩, ?_, trivial⟩, ⟨?_, ?_, ?_⟩, rfl⟩, trivial⟩ <;>
      simp [first, second, unindented, Line.text, Terminator.text]
  have consumed : Consumes ([first, second].flatMap Document.text)
      ⟨18, "\tx\r\nA\n\ty\rB".toList⟩ ⟨28, []⟩ := ⟨rfl, by decide +kernel⟩
  have next : nextToken reached.pending.isEmpty reached.cursor =
      .ok (some (⟨.newline, ⟨17, 18⟩⟩, ⟨18, "\tx\r\nA\n\ty\rB".toList⟩)) := by
    with_unfolding_all rfl
  refine ⟨reached, line, _, _, [first, second], reads, rfl,
    (hereDocs_delivered_iff rfl reads next rfl rfl consumed stand).mpr ?_⟩
  intro document member quoted strips
  rcases List.mem_pair.mp member with rfl | rfl
  · cases strips
  · exact ⟨by decide, by decide⟩

/-- The last newline of a `<<-` document does not reach the command. -/
theorem hereDoc_newline_lost : ¬∀ (before reached : Lexer) (line : List (Token Char))
    (newline : Token Char) (behind last : Cursor Char) (documents : List Document),
    before.pending = [] → before.Reads line reached →
    nextToken reached.pending.isEmpty reached.cursor = .ok (some (newline, behind)) →
    newline.kind = .newline →
    line.filterMap Token.operator = documents.map Document.operator →
    Consumes (documents.flatMap Document.text) behind last →
    DocumentsStand last.rest documents →
    ∃ filled, Delivered quietHost openDirectory before reached line newline behind last documents
      filled := by
  intro keep
  let document : Document := ⟨true, "EOF".toList, true, [⟨"\thello".toList, .lf⟩],
    ⟨"EOF".toList, .lf⟩⟩
  let line : List (Token Char) := [⟨.word "cat".toList, ⟨0, 3⟩⟩,
    ⟨.hereDoc none true "EOF".toList [] true, ⟨4, 12⟩⟩]
  let reached : Lexer := ⟨announced 0 line, line, ⟨12, "\n\thello\nEOF\n".toList⟩⟩
  have reads : (Lexer.new "cat <<-'EOF'\n\thello\nEOF\n".toList).Reads line reached := by
    refine Lexer.Reads.token ⟨3, " <<-'EOF'\n\thello\nEOF\n".toList⟩
      (by with_unfolding_all rfl) (by decide) ?_
    refine Lexer.Reads.token ⟨12, "\n\thello\nEOF\n".toList⟩
      (by with_unfolding_all rfl) (by decide) ?_
    exact Lexer.Reads.nothing reached
  have stand : DocumentsStand [] [document] := by
    refine ⟨⟨⟨⟨?_, ?_, ?_⟩, ?_, trivial⟩, ⟨?_, ?_, ?_⟩, rfl⟩, trivial⟩ <;>
      simp [document, unindented]
  have consumed : Consumes ([document].flatMap Document.text)
      ⟨13, "\thello\nEOF\n".toList⟩ ⟨24, []⟩ := ⟨rfl, by decide +kernel⟩
  have next : nextToken reached.pending.isEmpty reached.cursor =
      .ok (some (⟨.newline, ⟨12, 13⟩⟩, ⟨13, "\thello\nEOF\n".toList⟩)) := by
    with_unfolding_all rfl
  obtain ⟨filled, delivered⟩ :=
    keep _ reached line _ _ _ [document] rfl reads next rfl rfl consumed stand
  have captured : capturePendingHeredocs (reached.tokens ++ [⟨.newline, ⟨12, 13⟩⟩])
      ⟨13, "\thello\nEOF\n".toList⟩ reached.pending =
        .ok (fill line [document] ++ [⟨.newline, ⟨12, 13⟩⟩], ⟨24, []⟩) := by with_unfolding_all rfl
  have same := congrArg Prod.fst
    (Except.ok.inj (delivered.ends.captured.symm.trans captured))
  have filledIs : filled = fill line [document] := List.append_cancel_right same
  have feeds := delivered.feeds
  rw [filledIs, feeds_documents_iff rfl stand] at feeds
  exact (feeds document List.mem_cons_self rfl rfl).last (by decide)

end OddJobs.Shell
