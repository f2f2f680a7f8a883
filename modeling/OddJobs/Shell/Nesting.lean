import OddJobs.Shell.Readers
import OddJobs.Shell.Sentences

/-!
# Nested substitutions

The end of a substitution is found by counting the parentheses outside quotes.  The text is
read whole if and only if it leaves neither a parenthesis nor a quote open, as
`QuoteState.process` sees the quotes: those of a nested substitution are not kept apart.
-/

namespace OddJobs.Shell

open Library

/-! ## Scanning a text -/

/-- The open parentheses and the quotes behind a text, or none where more are closed than
have been opened. -/
def scanParens (depth : Nat) (quotes : QuoteState) : List Char → Option (Nat × QuoteState)
  | [] => some (depth, quotes)
  | c :: rest =>
      let (literal, quotes) := quotes.process c
      if literal then scanParens depth quotes rest
      else if c = '(' then scanParens (depth + 1) quotes rest
      else if c = ')' then if depth = 0 then none else scanParens (depth - 1) quotes rest
      else scanParens depth quotes rest

/-- Nothing is left open behind the text. -/
def Closed (text : List Char) : Prop := scanParens 0 .new text = some (0, .new)

instance (text : List Char) : Decidable (Closed text) := inferInstanceAs (Decidable (_ = _))

/-- A closed text is the content of the substitution around it. -/
theorem readBalancedFrom_closed {start depth pos : Nat} {quotes : QuoteState}
    {text content later : List Char} (closed : scanParens depth quotes text = some (0, .new)) :
    readBalancedFrom '(' ')' start (depth + 1) quotes content pos (text ++ ')' :: later) =
      .ok (content ++ text, ⟨pos + (text.map size).sum + 1, later⟩) := by
  induction text generalizing depth quotes content pos with
  | nil =>
      cases closed
      rw [List.append_nil]
      rfl
  | cons c text ih =>
      have step {depth : Nat} {quotes : QuoteState}
          (closed : scanParens depth quotes text = some (0, .new)) :
          readBalancedFrom '(' ')' start (depth + 1) quotes (content ++ [c]) (pos + size c)
              (text ++ ')' :: later) =
            .ok (content ++ c :: text, ⟨pos + ((c :: text).map size).sum + 1, later⟩) := by
        rw [ih closed, List.append_assoc, List.singleton_append, List.map_cons, List.sum_cons,
          Nat.add_assoc pos]
      rw [scanParens] at closed
      rw [List.cons_append, readBalancedFrom]
      dsimp only [char_self] at closed ⊢
      split at closed
      · rename_i literal
        rw [if_pos literal]
        exact step closed
      · rename_i plain
        rw [if_neg plain]
        split at closed
        · rename_i opens
          rw [if_pos opens]
          exact step closed
        · rename_i notOpening
          rw [if_neg notOpening]
          split at closed
          · rename_i closes
            rw [if_pos closes]
            split at closed
            · cases closed
            · rename_i inside
              rw [Nat.add_sub_cancel, if_neg inside]
              obtain ⟨depth, rfl⟩ := Nat.exists_eq_succ_of_ne_zero inside
              exact step closed
          · rename_i notClosing
            rw [if_neg notClosing]
            exact step closed

/-- Only quotes and a backslash change what is read literally. -/
theorem QuoteState.process_paren (quotes : QuoteState)
    (plain : (quotes.process ')').1 = false) : quotes = .new := by
  obtain ⟨single, double, escaped⟩ := quotes
  cases single <;> cases double <;> cases escaped <;> first | rfl | cases plain

/-- What is read is closed, and the parenthesis behind it ends it. -/
theorem closed_of_readBalancedFrom {start depth pos : Nat} {quotes : QuoteState}
    {rest content found : List Char} {after : Cursor Char}
    (read : readBalancedFrom '(' ')' start (depth + 1) quotes content pos rest =
      .ok (found, after)) :
    ∃ text, rest = text ++ ')' :: after.rest ∧ found = content ++ text ∧
      scanParens depth quotes text = some (0, .new) := by
  induction rest generalizing depth quotes content pos with
  | nil => cases read
  | cons c rest ih =>
      have step {depth : Nat} {quotes : QuoteState}
          (read : readBalancedFrom '(' ')' start (depth + 1) quotes (content ++ [c]) (pos + size c)
            rest = .ok (found, after)) :
          ∃ text, c :: rest = c :: text ++ ')' :: after.rest ∧ found = content ++ c :: text ∧
            scanParens depth quotes text = some (0, .new) := by
        obtain ⟨text, rfl, rfl, closed⟩ := ih read
        exact ⟨text, rfl, by simp, closed⟩
      rw [readBalancedFrom] at read
      dsimp only [char_self] at read
      split at read
      · rename_i literal
        obtain ⟨text, stands, is, closed⟩ := step read
        refine ⟨c :: text, stands, is, ?_⟩
        rw [scanParens]
        exact (if_pos literal).trans closed
      · rename_i plain
        split at read
        · rename_i opens
          obtain ⟨text, stands, is, closed⟩ := step read
          refine ⟨c :: text, stands, is, ?_⟩
          rw [scanParens]
          exact (if_neg plain).trans ((if_pos opens).trans closed)
        · rename_i notOpening
          split at read
          · rename_i closes
            rw [Nat.add_sub_cancel] at read
            split at read
            · rename_i outermost
              cases read
              refine ⟨[], congrArg (· :: rest) closes, (List.append_nil _).symm, ?_⟩
              rw [closes] at plain
              rw [scanParens, outermost, quotes.process_paren (Bool.eq_false_iff.mpr plain)]
            · rename_i inside
              obtain ⟨depth, rfl⟩ := Nat.exists_eq_succ_of_ne_zero inside
              obtain ⟨text, stands, is, closed⟩ := step read
              refine ⟨c :: text, stands, is, ?_⟩
              rw [scanParens]
              exact (if_neg plain).trans ((if_neg notOpening).trans
                ((if_pos closes).trans ((if_neg inside).trans closed)))
          · rename_i notClosing
            obtain ⟨text, stands, is, closed⟩ := step read
            refine ⟨c :: text, stands, is, ?_⟩
            rw [scanParens]
            exact (if_neg plain).trans
              ((if_neg notOpening).trans ((if_neg notClosing).trans closed))

/-- A text that is read up to the last parenthesis is closed. -/
theorem scanParens_of_read {start depth pos stop : Nat} {quotes : QuoteState}
    {text content found : List Char}
    (read : readBalancedFrom '(' ')' start (depth + 1) quotes content pos (text ++ [')']) =
      .ok (found, ⟨stop, []⟩)) : scanParens depth quotes text = some (0, .new) := by
  obtain ⟨inner, stands, -, closed⟩ := closed_of_readBalancedFrom read
  rw [List.append_cancel_right stands]
  exact closed

/-! ## Lexing around a substitution -/

section Lexing

variable {α : Type} [Letter α]

open Letter

/-- A letter that is neither special nor a boundary belongs to the word. -/
theorem readWord_letter {word : List α} {stop pos : Nat} {a : α} {rest : List α}
    (plain : char a ≠ '\\') (inside : isWordBoundary (char a) = false) :
    readWord word stop ⟨pos, a :: rest⟩ =
      readWord (word ++ [a]) (pos + size a) ⟨pos + size a, rest⟩ := by
  have noContinuation : lineContinuation ⟨pos, a :: rest⟩ = none := by
    rw [lineContinuation, if_neg]
    intro peeked
    exact plain (Option.some.inj peeked)
  rw [readWord.eq_def]
  dsimp only
  split
  · rename_i continues
    rw [noContinuation] at continues
    cases continues
  · rw [if_neg plain, if_neg (by rw [inside]; exact Bool.false_ne_true)]

theorem readWord_boundary {word : List α} {stop pos : Nat} {a : α} {rest : List α}
    (plain : char a ≠ '\\') (boundary : isWordBoundary (char a) = true) :
    readWord word stop ⟨pos, a :: rest⟩ = (word, stop, ⟨pos, a :: rest⟩) := by
  have noContinuation : lineContinuation ⟨pos, a :: rest⟩ = none := by
    rw [lineContinuation, if_neg]
    intro peeked
    exact plain (Option.some.inj peeked)
  rw [readWord.eq_def]
  dsimp only
  split
  · rename_i continues
    rw [noContinuation] at continues
    cases continues
  · rw [if_neg plain, if_pos boundary]

theorem skipWhitespace_letter {pos : Nat} {a : α} {rest : List α}
    (plain : char a ≠ ' ' ∧ char a ≠ '\t' ∧ char a ≠ '\\') :
    skipWhitespace ⟨pos, a :: rest⟩ = ⟨pos, a :: rest⟩ := by
  obtain ⟨noSpace, noTab, noBackslash⟩ := plain
  have noContinuation : lineContinuation ⟨pos, a :: rest⟩ = none := by
    rw [lineContinuation, if_neg]
    intro peeked
    exact noBackslash (Option.some.inj peeked)
  rw [skipWhitespace, dif_neg]
  · split
    · rename_i continues
      rw [noContinuation] at continues
      cases continues
    · rfl
  · rintro (peeked | peeked)
    · exact noSpace (Option.some.inj peeked)
    · exact noTab (Option.some.inj peeked)

theorem skipWhitespace_space {pos : Nat} {a : α} {rest : List α} (space : char a = ' ') :
    skipWhitespace ⟨pos, a :: rest⟩ = skipWhitespace ⟨pos + size a, rest⟩ := by
  have blank : (⟨pos, a :: rest⟩ : Cursor α).peekChar = some ' ' := congrArg some space
  rw [skipWhitespace, dif_pos (Or.inl blank)]
  rfl

theorem readDoubleQuoted_dollar {start lastPos pos : Nat} {parts : List (WordPart α (List α))}
    {literal rest : List α} {lastWasExpansion : Bool} {a : α} {part : WordPart α (List α)}
    {cursor : Cursor α} (dollar : char a = '$')
    (read : lexQuotedDollar pos ⟨pos + size a, rest⟩ = .ok (part, cursor)) :
    readDoubleQuoted start parts literal lastWasExpansion lastPos pos (a :: rest) =
      readDoubleQuoted start (flushLiteral parts literal parts.isEmpty ++ [part]) [] true
        (pos + size a) cursor.pos cursor.rest := by
  rw [readDoubleQuoted.eq_def]
  dsimp only
  rw [if_neg (by rw [dollar]; decide), if_neg (by rw [dollar]; decide), if_pos dollar]
  split
  · rename_i failed
    rw [read] at failed
    cases failed
  · rename_i found
    rw [read] at found
    cases found
    rfl

theorem readDoubleQuoted_close {start lastPos pos : Nat} {parts : List (WordPart α (List α))}
    {literal rest : List α} {lastWasExpansion : Bool} {a : α} (closes : char a = '\"') :
    readDoubleQuoted start parts literal lastWasExpansion lastPos pos (a :: rest) =
      .ok (flushLiteral parts literal lastWasExpansion, ⟨pos + size a, rest⟩) := by
  rw [readDoubleQuoted.eq_def]
  dsimp only
  rw [if_pos closes]

theorem nextToken_skipped {noPending : Bool} {before : Cursor α} {pos : Nat} {a : α}
    {rest : List α} (skipped : skipWhitespace before = ⟨pos, a :: rest⟩) :
    nextToken noPending before =
      (lexToken noPending (char a) ⟨pos, a :: rest⟩).map some := by
  rw [nextToken, skipped]
  rfl

end Lexing

def echoToken : Token Char := ⟨.word "echo".toList, ⟨0, 4⟩⟩

theorem nextToken_echo (rest : List Char) :
    nextToken true ⟨0, "echo ".toList ++ rest⟩ = .ok (some (echoToken, ⟨4, ' ' :: rest⟩)) := by
  have word : readWord [] 0 (⟨0, "echo ".toList ++ rest⟩ : Cursor Char) =
      ("echo".toList, 4, ⟨4, ' ' :: rest⟩) := by
    change readWord [] 0 (⟨0, 'e' :: 'c' :: 'h' :: 'o' :: ' ' :: rest⟩ : Cursor Char) = _
    rw [readWord_letter (by decide) (by decide), readWord_letter (by decide) (by decide),
      readWord_letter (by decide) (by decide), readWord_letter (by decide) (by decide),
      readWord_boundary (by decide) (by decide)]
    rfl
  have skipped : skipWhitespace (⟨0, 'e' :: 'c' :: 'h' :: 'o' :: ' ' :: rest⟩ : Cursor Char) = _ :=
    skipWhitespace_letter (by decide)
  refine (nextToken_skipped skipped).trans ?_
  change (lexWord (⟨0, "echo ".toList ++ rest⟩ : Cursor Char)).map some = _
  rw [lexWord, word]
  rfl

theorem tokenize_echo (rest : List Char) :
    tokenize ("echo ".toList ++ rest) = tokenizeFrom [] [echoToken] ⟨4, ' ' :: rest⟩ :=
  @tokenizeFrom_token Char _ [] [] ⟨0, "echo ".toList ++ rest⟩ _ echoToken (by decide)
    (nextToken_echo rest)

/-- A substitution behind white space is a token of its own. -/
theorem nextToken_substitution (tail : List Char) :
    nextToken true ⟨4, ' ' :: '$' :: '(' :: tail⟩ =
      (readBalancedContent '(' ')' 5 ⟨7, tail⟩).map fun read =>
        some (⟨.commandSubstitution read.1 false, ⟨5, read.2.pos⟩⟩, read.2) := by
  have skipped : skipWhitespace ⟨4, ' ' :: '$' :: '(' :: tail⟩ = ⟨5, '$' :: '(' :: tail⟩ := by
    rw [skipWhitespace_space rfl]
    exact skipWhitespace_letter (by decide)
  rw [nextToken_skipped skipped]
  change (lexVariable ⟨5, '$' :: '(' :: tail⟩).map some = _
  rw [lexVariable]
  change (readBalancedContent '(' ')' 5 ⟨7, tail⟩ >>= _).map some = _
  rcases readBalancedContent '(' ')' 5 ⟨7, tail⟩ with error | read
  · rfl
  · rfl

theorem readBalancedContent_closed {text : List Char} (closed : Closed text) (start pos : Nat)
    (later : List Char) :
    readBalancedContent '(' ')' start ⟨pos, text ++ ')' :: later⟩ =
      .ok (text, ⟨pos + (text.map size).sum + 1, later⟩) :=
  readBalancedFrom_closed closed

/-- The same in a double-quoted string, which has an empty literal before and behind it. -/
theorem nextToken_quotedSubstitution {text : List Char} (closed : Closed text) :
    nextToken true ⟨4, ' ' :: '\"' :: '$' :: '(' :: (text ++ [')', '\"'])⟩ =
      .ok (some (⟨.doubleQuoted [.literal [] .double, .commandSubstitution text false,
        .literal [] .double], ⟨5, 9 + (text.map size).sum + 1⟩⟩,
          ⟨9 + (text.map size).sum + 1, []⟩)) := by
  have skipped : skipWhitespace ⟨4, ' ' :: '\"' :: '$' :: '(' :: (text ++ [')', '\"'])⟩ =
      ⟨5, '\"' :: '$' :: '(' :: (text ++ [')', '\"'])⟩ := by
    rw [skipWhitespace_space rfl]
    exact skipWhitespace_letter (by decide)
  have dollar : lexQuotedDollar 6 ⟨7, '(' :: (text ++ [')', '\"'])⟩ =
      .ok (.commandSubstitution text false, ⟨8 + (text.map size).sum + 1, ['\"']⟩) := by
    rw [lexQuotedDollar]
    change (readBalancedContent '(' ')' 6 ⟨8, text ++ ')' :: ['\"']⟩ >>= _) = _
    rw [readBalancedContent_closed closed]
    rfl
  have quoted : readDoubleQuoted 5 [] [] false 6 6 ('$' :: '(' :: (text ++ [')', '\"'])) =
      .ok ([.literal [] .double, .commandSubstitution text false, .literal [] .double],
        ⟨9 + (text.map size).sum + 1, []⟩) := by
    rw [readDoubleQuoted_dollar rfl dollar, readDoubleQuoted_close rfl]
    have moved : 8 + (text.map size).sum + 1 + size '\"' = 9 + (text.map size).sum + 1 := by
      rw [show size '\"' = 1 from rfl]
      omega
    rw [moved]
    rfl
  rw [nextToken_skipped skipped]
  change (lexDoubleQuote ⟨5, '\"' :: '$' :: '(' :: (text ++ [')', '\"'])⟩).map some = _
  rw [lexDoubleQuote]
  change (readDoubleQuoted 5 [] [] false 6 6 ('$' :: '(' :: (text ++ [')', '\"'])) >>= _).map
    some = _
  rw [quoted]
  rfl

/-! ## The command with the substitution -/

/-- The input is parsed to `echo` with one argument, of these parts. -/
def SoleArgument (input : List Char) (parts : List (WordPart Char CommandList)) : Prop :=
  ∃ nameSpan argSpan commandSpan itemSpan chainSpan span,
    Parser.parse input =
      .ok ⟨[⟨⟨.simple ⟨[], ⟨[.literal "echo".toList .unquoted], nameSpan⟩, [⟨parts, argSpan⟩], [],
        commandSpan⟩, false, itemSpan⟩, [], chainSpan⟩], span⟩

/-- A substitution stands for its text, bare and in double quotes, where there is an empty
literal on both of its sides. -/
def Nests (text : List Char) (body : CommandList) : Prop :=
  SoleArgument ("echo $(".toList ++ text ++ ")".toList) [.commandSubstitution body false] ∧
    SoleArgument ("echo \"$(".toList ++ text ++ ")\"".toList)
      [.literal [] .double, .commandSubstitution body false, .literal [] .double]

/-- A command of `echo` and one more token of a word. -/
theorem soleArgument_of_tokens {input : List Char} {kind : TokenKind Char} {stop : Nat}
    {part : WordPart Char CommandList} {more : List (WordPart Char CommandList)}
    (lexed : tokenize input = .ok [echoToken, ⟨kind, ⟨5, stop⟩⟩])
    (converted : tokenToParts Parser.parse ⟨kind, ⟨5, stop⟩⟩ = .ok (part :: more))
    (accepted : ∀ proper,
      ∃ nameSpan argSpan commandSpan itemSpan chainSpan span,
        parseCommandList (input.map size).sum
            [Token.parsed Parser.parse echoToken,
              ⟨⟨kind, ⟨5, stop⟩⟩, .ok (part :: more), proper⟩] =
          .ok ⟨[⟨⟨.simple ⟨[], ⟨[.literal "echo".toList .unquoted], nameSpan⟩,
            [⟨part :: more, argSpan⟩], [], commandSpan⟩, false, itemSpan⟩, [], chainSpan⟩], span⟩) :
    SoleArgument input (part :: more) := by
  have second : Token.parsed Parser.parse ⟨kind, ⟨5, stop⟩⟩ = ⟨⟨kind, ⟨5, stop⟩⟩,
      .ok (part :: more), converted ▸ tokenToParts_eq_nil Parser.parse ⟨kind, ⟨5, stop⟩⟩⟩ := by
    simp only [Token.parsed, converted]
  rw [SoleArgument, parse_eq, lexed]
  dsimp only
  rw [List.map_cons, List.map_singleton, second]
  exact accepted _

theorem Closed.nests {text : List Char} {body : CommandList} (closed : Closed text)
    (parsed : Parser.parse text = .ok body) : Nests text body := by
  have substituted (span : Span) :
      parseCommandSubstitution Parser.parse text false span =
        .ok (.commandSubstitution body false) := by
    rw [parseCommandSubstitution, parsed]
  constructor
  · let stop := 7 + (text.map size).sum + 1
    have lexed : tokenize ("echo $(".toList ++ text ++ ")".toList) =
        .ok [echoToken, ⟨.commandSubstitution text false, ⟨5, stop⟩⟩] := by
      have next := nextToken_substitution (text ++ [')'])
      rw [readBalancedContent_closed closed] at next
      rw [List.append_assoc]
      refine (tokenize_echo _).trans (tokenizeFrom_last ?_ rfl next)
      rintro ⟨⟩
    refine soleArgument_of_tokens lexed ?_ ?_
    · exact bind_eq_ok.mpr ⟨_, substituted _, rfl⟩
    · intro proper
      iterate 6 apply Exists.intro
      with_unfolding_all rfl
  · let stop := 9 + (text.map size).sum + 1
    have lexed : tokenize ("echo \"$(".toList ++ text ++ ")\"".toList) =
        .ok [echoToken, ⟨.doubleQuoted [.literal [] .double, .commandSubstitution text false,
          .literal [] .double], ⟨5, stop⟩⟩] := by
      have next := nextToken_quotedSubstitution closed
      rw [List.append_assoc]
      refine (tokenize_echo _).trans (tokenizeFrom_last ?_ rfl next)
      rintro ⟨⟩
    refine soleArgument_of_tokens lexed ?_ ?_
    · rw [tokenToParts]
      dsimp only
      rw [if_neg (by rintro ⟨⟩), mapM_eq_ok]
      exact .cons rfl (.cons (substituted _) (.cons rfl .nil))
    · intro proper
      iterate 6 apply Exists.intro
      with_unfolding_all rfl

/-! ## What is left behind a substitution -/

def Cursor.EndsClosing (cursor : Cursor Char) : Prop := ∃ front, cursor.rest = front ++ [')']

namespace Cursor.EndsClosing

variable {cursor after : Cursor Char}

theorem next {c : Char} (ends : cursor.EndsClosing) (peeked : cursor.peekChar = some c)
    (other : c ≠ ')') : cursor.next.EndsClosing := by
  obtain ⟨front, ends⟩ := ends
  obtain ⟨a, rest, stands, is⟩ := Cursor.peek_some peeked
  rw [stands] at ends
  cases front with
  | nil =>
      cases ends
      exact (other is.symm).elim
  | cons first front =>
      refine ⟨front, ?_⟩
      rw [Cursor.next, stands]
      exact (List.cons.inj ends).2

theorem continued (ends : cursor.EndsClosing) (continues : lineContinuation cursor = some after) :
    after.EndsClosing := by
  rw [lineContinuation] at continues
  split at continues
  · rename_i backslash
    have first := ends.next backslash (by decide)
    dsimp only at continues
    split at continues
    · rename_i newline
      cases continues
      exact first.next newline (by decide)
    · split at continues
      · rename_i carriage
        split at continues
        · rename_i newline
          cases continues
          exact (first.next carriage (by decide)).next newline (by decide)
        · cases continues
      · cases continues
  · cases continues

theorem newline (ends : cursor.EndsClosing) : (consumeNewline cursor).EndsClosing := by
  rw [consumeNewline]
  split
  · rename_i newline
    exact ends.next newline (by decide)
  · split
    · rename_i carriage
      have first := ends.next carriage (by decide)
      dsimp only
      split
      · rename_i newline
        exact first.next newline (by decide)
      · exact first
    · exact ends

theorem whitespace (ends : cursor.EndsClosing) : (skipWhitespace cursor).EndsClosing := by
  fun_induction skipWhitespace cursor with
  | case1 cursor blank ih =>
      rcases blank with space | tab
      · exact ih (ends.next space (by decide))
      · exact ih (ends.next tab (by decide))
  | case2 cursor notBlank next continues ih => exact ih (ends.continued continues)
  | case3 cursor notBlank stands => exact ends

theorem newlines (ends : cursor.EndsClosing) : (skipNewlines cursor).EndsClosing := by
  fun_induction skipNewlines cursor with
  | case1 cursor newline ih => exact ih ends.newline
  | case2 cursor noNewline blank ih =>
      rcases blank with space | tab
      · exact ih (ends.next space (by decide))
      · exact ih (ends.next tab (by decide))
  | case3 cursor noNewline notBlank => exact ends

end Cursor.EndsClosing

/-- A separator leaves a parenthesis at the end of the input. -/
theorem lexToken_separator {noPending : Bool} {c : Char} {before after : Cursor Char}
    {token : Token Char} (peeked : before.peekChar = some c)
    (read : lexToken noPending c before = .ok (token, after))
    (separates : token.kind.isSeparator = true) (ends : before.EndsClosing) :
    after.EndsClosing := by
  have other {token : Token Char} (is : token.kind.isOther = true)
      (separates : token.kind.isSeparator = true) : after.EndsClosing :=
    absurd ((TokenKind.isOther_notSeparator is).symm.trans separates) Bool.false_ne_true
  have fixed {result : Token Char × Cursor Char} (is : result.1.kind.isOther = true)
      (read : (.ok result : Except (LexerError Char) (Token Char × Cursor Char)) =
        .ok (token, after)) : after.EndsClosing := by
    cases read
    exact other is separates
  rw [lexToken.eq_def] at read
  split at read
  · have same : (lexNewline noPending before).2 = after :=
      congrArg Prod.snd (Except.ok.inj read)
    have first := ends.next peeked (by decide)
    rw [← same]
    cases noPending with
    | true => exact first.newlines
    | false => exact first
  · cases read
    exact ends.newline
  · exact fixed (lexAmpersand_other before) read
  · exact fixed (lexPipe_other before) read
  · cases read
    exact ends.next peeked (by decide)
  · exact fixed rfl read
  · exact fixed rfl read
  · exact fixed rfl read
  · exact fixed rfl read
  · exact other (lexVariable_other read) separates
  · obtain ⟨found, -, returned⟩ := bind_eq_ok.mp read
    cases returned
    cases separates
  · exact other (lexRedirectOut_other read) separates
  · exact other (lexRedirectIn_other read) separates
  · obtain ⟨found, -, returned⟩ := bind_eq_ok.mp read
    cases returned
    cases separates
  · obtain ⟨found, -, returned⟩ := bind_eq_ok.mp read
    cases returned
    cases separates
  · exact other (lexWord_other read) separates

/-- At a parenthesis the input has not ended. -/
theorem nextToken_endsClosing {noPending : Bool} {before : Cursor Char}
    (ends : before.EndsClosing) : nextToken noPending before ≠ .ok none := by
  intro read
  obtain ⟨front, stands⟩ := ends.whitespace
  rw [nextToken] at read
  split at read
  · rename_i ended
    rw [Cursor.peekChar, stands] at ended
    cases front <;> cases ended
  · rename_i c peeked
    rcases lexed : lexToken noPending c (skipWhitespace before) with error | found
    · rw [lexed] at read
      cases read
    · rw [lexed] at read
      cases read

def separators (tokens : List (Token Char)) : List Bool := tokens.map (·.kind.isSeparator)

theorem separators_append (first second : List (Token Char)) :
    separators (first ++ second) = separators first ++ separators second := List.map_append

theorem separators_withBody (tokens : List (Token Char)) (index : Nat) (body : List Char) :
    separators (tokens.modify index (·.withBody body)) = separators tokens := by
  induction tokens generalizing index with
  | nil => cases index <;> rfl
  | cons token tokens ih =>
      cases index with
      | zero =>
          obtain ⟨kind, span⟩ := token
          cases kind <;> rfl
      | succ index => exact congrArg (token.kind.isSeparator :: ·) (ih index)

theorem separators_captured {tokens found : List (Token Char)} {before after : Cursor Char}
    {pending : List (PendingHereDoc Char)}
    (read : capturePendingHeredocs tokens before pending = .ok (found, after)) :
    separators found = separators tokens := by
  induction pending generalizing tokens before with
  | nil =>
      cases read
      rfl
  | cons first later ih =>
      rw [capturePendingHeredocs] at read
      split at read
      · cases read
      · exact (ih read).trans (separators_withBody tokens _ _)

/-- Tokens are added behind those read so far; before the end of an input that ends with a
parenthesis, one of them is not a separator. -/
theorem tokenizeFrom_separators {pending : List (PendingHereDoc Char)}
    {tokens found : List (Token Char)} {before : Cursor Char}
    (read : tokenizeFrom pending tokens before = .ok found) :
    ∃ more, separators found = separators tokens ++ more ∧
      (pending = [] → before.EndsClosing → false ∈ more) := by
  fun_induction tokenizeFrom pending tokens before with
  | case1 => cases read
  | case2 tokens before ended =>
      cases read
      exact ⟨[], (List.append_nil _).symm, fun _ ends =>
        (nextToken_endsClosing ends ended).elim⟩
  | case3 => cases read
  | case4 => cases read
  | case5 pending tokens before token after next line newTokens reached captured ih =>
      obtain ⟨more, same, some⟩ := ih read
      rw [separators_captured captured, separators_append, List.append_assoc] at same
      refine ⟨_, same, ?_⟩
      intro none ends
      subst none
      cases captured
      obtain ⟨c, peeked, lexed⟩ := nextToken_some next
      have behind := lexToken_separator peeked lexed (by rw [line]; rfl) ends.whitespace
      exact List.mem_append_right _ (some rfl behind)
  | case6 pending tokens before token after next line ih =>
      obtain ⟨more, same, some⟩ := ih read
      rw [separators_append, List.append_assoc] at same
      refine ⟨_, same, ?_⟩
      intro none ends
      subst none
      by_cases separates : token.kind.isSeparator = true
      · obtain ⟨c, peeked, lexed⟩ := nextToken_some next
        have behind := lexToken_separator peeked lexed separates ends.whitespace
        have noneBehind : token.pending [] tokens = [] := by
          obtain ⟨kind, span⟩ := token
          cases kind <;> first | rfl | cases separates
        exact List.mem_append_right _ (some noneBehind behind)
      · refine List.mem_append_left _ (List.mem_singleton.mpr ?_)
        exact (Bool.eq_false_iff.mpr separates).symm

/-! ## The tokens of a command with one argument -/

section Counting

variable {Body : List Char → CommandList → Prop}

def countOthers (front : List Lexeme) : Nat :=
  (separators (front.flatMap Lexeme.tokens)).count false

theorem countOthers_append (front later : List Lexeme) :
    countOthers (front ++ later) = countOthers front + countOthers later := by
  rw [countOthers, List.flatMap_append, separators_append, List.count_append]
  rfl

theorem countOthers_separator {token : Token Char} (later : List Lexeme)
    (separates : token.kind.isSeparator = true) :
    countOthers (.mark token :: later) = countOthers later := by
  rw [countOthers, List.flatMap_cons, separators_append, List.count_append]
  change [token.kind.isSeparator].count false + countOthers later = countOthers later
  rw [separates]
  exact Nat.zero_add _

/-- A token of a word brings at least one part to it. -/
theorem RunOf.length_le {run : List (Token Char)} {parts : List (WordPart Char CommandList)}
    (of : RunOf Body run parts) : run.length ≤ parts.length := by
  induction of with
  | nil => exact Nat.le_refl 0
  | @cons token run parts later brings rest ih =>
      have positive : 0 < parts.length := by
        obtain ⟨kind, span⟩ := token
        cases brings with
        | doubleQuoted some all =>
            rw [← all.length_eq]
            exact List.length_pos_iff.mpr some
        | _ => exact Nat.one_pos
      rw [List.length_cons, List.length_append]
      omega

/-- A command with a name and one argument of single parts has at most two tokens. -/
theorem SimpleOf.countOthers_le {front : List Lexeme} {name arg : Word CommandList} {span : Span}
    (of : SimpleOf Body front ⟨[], name, [arg], [], span⟩) :
    countOthers front ≤ name.parts.length + arg.parts.length := by
  have word {run : List (Token Char)} {parts : List (WordPart Char CommandList)}
      (of : RunOf Body run parts) : countOthers [.word run] ≤ parts.length := by
    refine Nat.le_trans (List.count_le_length) ?_
    rw [separators, List.length_map, List.flatMap_singleton]
    exact of.length_le
  cases of with
  | command assigns plain named followed =>
      cases assigns
      cases followed with
      | @arg run later word' args redirections first rest =>
          cases rest
          have one := word named
          have two := word first
          rw [List.nil_append]
          change countOthers ([.word _] ++ [.word run]) ≤ _
          rw [countOthers_append]
          exact Nat.add_le_add one two

/-- Around a single chain of one simple command there are only separators. -/
theorem ListOf.countOthers_eq {front : List Lexeme} {list : CommandList}
    (of : ListOf Body front list) :
    (list.commands = [] → countOthers front = 0) ∧
      ∀ command itemSpan chainSpan,
        list.commands = [⟨⟨.simple command, false, itemSpan⟩, [], chainSpan⟩] →
          ∃ start, SimpleOf Body start command ∧ countOthers front = countOthers start := by
  have chainOf {front : List Lexeme} {command : SimpleCommand CommandList}
      {itemSpan chainSpan : Span}
      (of : AndOrOf Body front ⟨⟨.simple command, false, itemSpan⟩, [], chainSpan⟩) :
      SimpleOf Body front command := by
    generalize single : (⟨⟨.simple command, false, itemSpan⟩, [], chainSpan⟩ :
      AndOrList CommandList) = andOr at of
    cases of with
    | item of =>
        cases single
        cases of with
        | foreground of =>
            cases of with
            | simple of => exact of
    | chain op of foreground later =>
        have none := congrArg AndOrList.rest single
        exact (List.append_ne_nil_of_right_ne_nil _ (List.cons_ne_nil _ _) none.symm).elim
  exact @ListOf.rec Body (fun _ _ _ => True) (fun _ _ _ => True) (fun _ _ _ => True)
    (fun front list _ => (list.commands = [] → countOthers front = 0) ∧
      ∀ command itemSpan chainSpan,
        list.commands = [⟨⟨.simple command, false, itemSpan⟩, [], chainSpan⟩] →
          ∃ start, SimpleOf Body start command ∧ countOthers front = countOthers start)
    (fun _ => trivial) (fun _ _ => trivial) (fun _ _ _ => trivial) (fun _ _ _ => trivial)
    (fun _ _ => trivial) (fun _ _ => trivial) (fun _ _ => trivial)
    (fun _ _ _ _ _ _ => trivial)
    ⟨fun _ => rfl, by rintro _ _ _ ⟨⟩⟩
    (by
      rintro later list token separates - ⟨none, one⟩
      rw [countOthers_separator later separates]
      exact ⟨none, one⟩)
    (by
      rintro front andOr span of -
      constructor
      · rintro ⟨⟩
      · rintro command itemSpan chainSpan ⟨⟩
        exact ⟨front, chainOf of, rfl⟩)
    (by
      rintro front later andOr token chains inner span of separates - - ⟨none, -⟩
      constructor
      · rintro ⟨⟩
      · rintro command itemSpan chainSpan ⟨⟩
        refine ⟨front, chainOf of, ?_⟩
        rw [countOthers_append, countOthers_separator later separates, none rfl, Nat.add_zero])
    (by
      rintro front later andOr chains inner span of background - - -
      constructor
      · rintro ⟨⟩
      · rintro command itemSpan chainSpan ⟨⟩
        cases background)
    front list of

end Counting

/-- A substitution that is the one argument has been read up to the last parenthesis. -/
theorem closed_of_soleArgument {text : List Char} {body : CommandList}
    (sole : SoleArgument ("echo $(".toList ++ text ++ ")".toList)
      [.commandSubstitution body false]) : Closed text := by
  obtain ⟨nameSpan, argSpan, commandSpan, itemSpan, chainSpan, span, parsed⟩ := sole
  rw [parse_eq] at parsed
  split at parsed
  · cases parsed
  · rename_i tokens lexed
    have of := parsedTokens_sound (fun _ _ => Sentence.of_parse) parsed
    obtain ⟨start, simple, same⟩ := of.countOthers_eq.2 _ _ _ rfl
    have few := simple.countOthers_le
    rw [← same, countOthers, flatMap_lexemes] at few
    rw [List.append_assoc] at lexed
    have started : tokenize ("echo $(".toList ++ (text ++ ")".toList)) =
        tokenizeFrom [] [echoToken] ⟨4, ' ' :: '$' :: '(' :: (text ++ [')'])⟩ :=
      tokenize_echo ('$' :: '(' :: (text ++ [')']))
    rw [started] at lexed
    have next := nextToken_substitution (text ++ [')'])
    rcases read : readBalancedContent '(' ')' 5 (⟨7, text ++ [')']⟩ : Cursor Char)
      with error | ⟨content, after⟩
    · rw [read] at next
      have failed := @tokenizeFrom_error Char _ [] [echoToken] _ error next
      have contradiction := failed.symm.trans lexed
      cases contradiction
    · rw [read] at next
      rw [@tokenizeFrom_token Char _ [] [echoToken] _ after
        ⟨.commandSubstitution content false, ⟨5, after.pos⟩⟩ (by rintro ⟨⟩) next] at lexed
      obtain ⟨more, separated, some⟩ := tokenizeFrom_separators lexed
      obtain ⟨last, consumed⟩ := readBalancedContent_ok read
      obtain ⟨stop, rest⟩ := after
      rcases List.eq_nil_or_concat' rest with rfl | ⟨front, final, rfl⟩
      · exact scanParens_of_read read
      · -- The rest ends with the last parenthesis, which is a token more.
        have ends : (⟨stop, front ++ [final]⟩ : Cursor Char).EndsClosing := by
          have both := consumed.rest_eq
          dsimp only at both
          rw [← List.append_assoc] at both
          have lastSame := (List.append_inj' both rfl).2
          cases lastSame
          exact ⟨front, rfl⟩
        have another := List.count_pos_iff.mpr (some rfl ends)
        rw [separated, List.count_append] at few
        change 2 + more.count false ≤ 2 at few
        omega

/-- A command stands in a substitution as it stands alone if and only if it leaves neither a
parenthesis nor a quote open. -/
theorem nests_iff_closed {text : List Char} {body : CommandList}
    (parsed : Parser.parse text = .ok body) : Nests text body ↔ Closed text :=
  ⟨fun nested => closed_of_soleArgument nested.1, fun closed => closed.nests parsed⟩

/-- Quotes around a nested substitution, which has none of its own. -/
theorem nests_in_quotes :
    ∃ body, Parser.parse "echo \"a $(b)\"".toList = .ok body ∧ Nests "echo \"a $(b)\"".toList body := by
  have accepted : (Parser.parse "echo \"a $(b)\"".toList).isOk = true := by decide +kernel
  rcases parsed : Parser.parse "echo \"a $(b)\"".toList with error | body
  · rw [parsed] at accepted
    cases accepted
  · exact ⟨body, rfl, (nests_iff_closed parsed).mpr (by decide +kernel)⟩

/-- The quotes of a nested substitution close those around it for the scanner. -/
theorem nests_fails_in_quotes :
    ∃ text body, '<' ∉ text ∧ Parser.parse text = .ok body ∧ ¬Nests text body := by
  let text := "echo \"$(echo \")\")\"".toList
  have accepted : (Parser.parse text).isOk = true := by decide +kernel
  have refused : (Parser.parse ("echo $(".toList ++ text ++ ")".toList)).isOk = false := by
    decide +kernel
  rcases parsed : Parser.parse text with error | body
  · rw [parsed] at accepted
    cases accepted
  · refine ⟨text, body, by decide +kernel, parsed, ?_⟩
    rintro ⟨⟨_, _, _, _, _, _, outer⟩, -⟩
    rw [outer] at refused
    cases refused

end OddJobs.Shell
