import OddJobs.Shell.Contents

/-!
# Kinds of tokens

Which reader brings which tokens: only a newline and a semicolon bring separators, and only
a double quote brings a double-quoted string, whose literals stand in double quotes.
-/

namespace OddJobs.Shell

open Library

section Kinds

variable {α : Type}

/-- A token that neither separates nor is a double-quoted string. -/
def TokenKind.isOther : TokenKind α → Bool
  | doubleQuoted _ => false
  | semi => false
  | newline => false
  | _ => true

theorem TokenKind.isOther_notSeparator {kind : TokenKind α} (other : kind.isOther = true) :
    kind.isSeparator = false := by
  cases kind with
  | semi => cases other
  | newline => cases other
  | _ => rfl

end Kinds

section Readers

variable {α : Type} [Letter α] {start : Nat} {before after : Cursor α} {token : Token α}

theorem lexDupTarget_other {source prefixLen : Nat} {output : Bool}
    (read : lexDupTarget start source output prefixLen before = .ok (token, after)) :
    token.kind.isOther = true := by
  rw [lexDupTarget] at read
  dsimp only at read
  split at read
  · cases read
    rfl
  · split at read
    · cases read
    · split at read
      · cases read
      · cases read
        rfl

theorem lexHeredoc_other {prefixLen : Nat} {fd : Option Nat} {stripTabs : Bool}
    (read : lexHeredoc start fd stripTabs prefixLen before = .ok (token, after)) :
    token.kind.isOther = true := by
  obtain ⟨⟨⟨delimiter, quoted⟩, cursor⟩, -, returned⟩ := bind_eq_ok.mp read
  dsimp only at returned
  split at returned
  · cases returned
  · cases returned
    rfl

theorem lexRedirectOut_other {fd : Option Nat}
    (read : lexRedirectOut start fd before = .ok (token, after)) :
    token.kind.isOther = true := by
  rw [lexRedirectOut] at read
  split at read
  · cases read
    rfl
  · split at read
    · exact lexDupTarget_other read
    · cases read
      rfl

theorem lexRedirectIn_other {fd : Option Nat}
    (read : lexRedirectIn start fd before = .ok (token, after)) :
    token.kind.isOther = true := by
  rw [lexRedirectIn] at read
  dsimp only at read
  split at read
  · split at read
    · cases read
      rfl
    · split at read
      · exact lexHeredoc_other read
      · exact lexHeredoc_other read
  · split at read
    · exact lexDupTarget_other read
    · cases read
      rfl

theorem lexWord_other (read : lexWord before = .ok (token, after)) :
    token.kind.isOther = true := by
  rw [lexWord] at read
  dsimp only at read
  split at read
  · cases read
    rfl
  · split at read
    · exact lexRedirectOut_other read
    · split at read
      · exact lexRedirectIn_other read
      · cases read
        rfl

theorem lexVariable_other (read : lexVariable before = .ok (token, after)) :
    token.kind.isOther = true := by
  rw [lexVariable] at read
  dsimp only at read
  split at read
  · cases read
  · split at read
    · obtain ⟨found, -, returned⟩ := bind_eq_ok.mp read
      cases returned
      rfl
    · split at read
      · obtain ⟨found, -, returned⟩ := bind_eq_ok.mp read
        cases returned
        rfl
      · split at read
        · cases read
          rfl
        · split at read
          · cases read
            rfl
          · cases read

theorem lexAmpersand_other (cursor : Cursor α) :
    (lexAmpersand cursor).1.kind.isOther = true := by
  rw [lexAmpersand]
  dsimp only
  split
  · rfl
  · split
    · split <;> rfl
    · rfl

theorem lexPipe_other (cursor : Cursor α) : (lexPipe cursor).1.kind.isOther = true := by
  rw [lexPipe]
  split <;> rfl

end Readers

/-! ## Double-quoted strings -/

section Quoted

variable {α : Type}

/-- The literals of a double-quoted string stand in double quotes, and unless it is empty it
begins with one. -/
structure WellQuoted (parts : List (WordPart α (List α))) : Prop where
  double : ∀ value quoted, .literal value quoted ∈ parts → quoted = .double
  begins : ∀ part rest, parts = part :: rest → ∃ value, part = .literal value .double

theorem WellQuoted.nil : WellQuoted ([] : List (WordPart α (List α))) where
  double := fun _ _ none => absurd none List.not_mem_nil
  begins := by
    intro part rest some
    cases some

theorem WellQuoted.append {parts : List (WordPart α (List α))} {part : WordPart α (List α)}
    (well : WellQuoted parts)
    (double : ∀ value quoted, part = .literal value quoted → quoted = .double)
    (first : parts = [] → ∃ value, part = .literal value .double) : WellQuoted (parts ++ [part]) where
  double := by
    intro value quoted member
    rcases List.mem_append.mp member with earlier | last
    · exact well.double value quoted earlier
    · exact double value quoted (List.mem_singleton.mp last).symm
  begins := by
    intro head rest stands
    cases parts with
    | nil =>
        cases stands
        exact first rfl
    | cons former parts =>
        cases stands
        exact well.begins _ _ rfl

theorem WellQuoted.flush {parts : List (WordPart α (List α))} (well : WellQuoted parts)
    (literal : List α) (boundary : Bool) : WellQuoted (flushLiteral parts literal boundary) := by
  rw [flushLiteral]
  split
  · exact well
  · refine well.append ?_ fun _ => ⟨literal, rfl⟩
    rintro value quoted ⟨⟩
    rfl

/-- Where a boundary is needed, the flushed parts are not empty. -/
theorem flushLiteral_ne_nil (parts : List (WordPart α (List α))) (literal : List α) :
    flushLiteral parts literal parts.isEmpty ≠ [] := by
  rw [flushLiteral]
  cases parts with
  | nil =>
      rw [if_neg (by simp)]
      exact List.cons_ne_nil _ _
  | cons part parts =>
      split
      · exact List.cons_ne_nil _ _
      · exact List.cons_ne_nil _ _

/-- A token whose double-quoted string, if it is one, is as the lexer leaves it. -/
def TokenKind.IsWellQuoted (kind : TokenKind α) : Prop :=
  ∀ parts, kind = .doubleQuoted parts → WellQuoted parts

theorem TokenKind.isWellQuoted_of_other {kind : TokenKind α} (other : kind.isOther = true) :
    kind.IsWellQuoted := by
  rintro parts rfl
  cases other

end Quoted

/-! ## Where a token comes from -/

section Tokens

variable {α : Type} [Letter α]

theorem nextToken_some {noPending : Bool} {before after : Cursor α} {token : Token α}
    (read : nextToken noPending before = .ok (some (token, after))) :
    ∃ c, (skipWhitespace before).peekChar = some c ∧
      lexToken noPending c (skipWhitespace before) = .ok (token, after) := by
  rw [nextToken] at read
  split at read
  · cases read
  · rename_i c peeked
    refine ⟨c, peeked, ?_⟩
    rcases lexed : lexToken noPending c (skipWhitespace before) with error | found
    · rw [lexed] at read
      cases read
    · rw [lexed] at read
      cases read
      rfl

/-- What holds of every token that is read, and of a here-document with any body, holds of
all the tokens. -/
theorem tokenizeFrom_all {P : TokenKind α → Prop} {pending : List (PendingHereDoc α)}
    {tokens found : List (Token α)} {before : Cursor α}
    (next : ∀ {noPending : Bool} {before after : Cursor α} {token : Token α},
      nextToken noPending before = .ok (some (token, after)) → P token.kind)
    (filled : ∀ (token : Token α) (body : List α), P token.kind → P (token.withBody body).kind)
    (read : tokenizeFrom pending tokens before = .ok found)
    (held : ∀ token ∈ tokens, P token.kind) : ∀ token ∈ found, P token.kind := by
  have captured {pending : List (PendingHereDoc α)} {tokens found : List (Token α)}
      {before after : Cursor α}
      (read : capturePendingHeredocs tokens before pending = .ok (found, after))
      (held : ∀ token ∈ tokens, P token.kind) : ∀ token ∈ found, P token.kind := by
    induction pending generalizing tokens before with
    | nil =>
        cases read
        exact held
    | cons first later ih =>
        rw [capturePendingHeredocs] at read
        split at read
        · cases read
        · rename_i body cursor _
          refine ih read fun token member => ?_
          obtain ⟨index, inside, is⟩ := List.mem_iff_getElem.mp member
          rw [List.getElem_modify] at is
          rw [List.length_modify] at inside
          have old := held _ (List.getElem_mem inside)
          split at is
          · subst is
            exact filled _ body old
          · subst is
            exact old
  have withToken {tokens : List (Token α)} {token : Token α}
      (held : ∀ token ∈ tokens, P token.kind) (of : P token.kind) :
      ∀ other ∈ tokens ++ [token], P other.kind := by
    intro other member
    rcases List.mem_append.mp member with earlier | last
    · exact held other earlier
    · rw [List.mem_singleton.mp last]
      exact of
  fun_induction tokenizeFrom pending tokens before with
  | case1 => cases read
  | case2 =>
      cases read
      exact held
  | case3 => cases read
  | case4 => cases read
  | case5 pending tokens before token after lexed newline newTokens middle capture ih =>
      exact ih read (captured capture (withToken held (next lexed)))
  | case6 pending tokens before token after lexed other ih =>
      exact ih read (withToken held (next lexed))

theorem lexQuotedDollar_double {start : Nat} {part : WordPart α (List α)} {before after : Cursor α}
    (read : lexQuotedDollar start before = .ok (part, after)) (value : List α)
    (quoted : QuoteStyle) (literal : part = .literal value quoted) : quoted = .double := by
  subst literal
  rw [lexQuotedDollar] at read
  split at read
  · cases read
    rfl
  · split at read
    · obtain ⟨found, -, returned⟩ := bind_eq_ok.mp read
      cases returned
    · split at read
      · obtain ⟨found, -, returned⟩ := bind_eq_ok.mp read
        cases returned
      · split at read
        · cases read
        · cases read
          rfl

theorem readDoubleQuoted_wellQuoted {start lastPos pos : Nat}
    {parts found : List (WordPart α (List α))} {literal rest : List α} {lastWasExpansion : Bool}
    {after : Cursor α} (well : WellQuoted parts)
    (read : readDoubleQuoted start parts literal lastWasExpansion lastPos pos rest =
      .ok (found, after)) : WellQuoted found := by
  fun_induction readDoubleQuoted start parts literal lastWasExpansion lastPos pos rest with
  | case1 => cases read
  | case2 =>
      cases read
      exact well.flush _ _
  | case3 => cases read
  | case4 => cases read
  | case5 parts literal lastWasExpansion lastPos pos a notClosing escapes b rest after c means ih =>
      exact ih well read
  | case6 => cases read
  | case7 parts literal lastWasExpansion lastPos pos a rest _ _ dollar part cursor lexed ih =>
      refine ih ((well.flush _ _).append ?_ ?_) read
      · exact lexQuotedDollar_double lexed
      · exact fun none => (flushLiteral_ne_nil parts literal none).elim
  | case8 => cases read
  | case9 parts literal lastWasExpansion lastPos pos a rest _ _ _ backtick part cursor lexed ih =>
      refine ih ((well.flush _ _).append ?_ ?_) read
      · obtain ⟨content, -, returned⟩ := bind_eq_ok.mp lexed
        cases returned
        rintro value quoted ⟨⟩
      · exact fun none => (flushLiteral_ne_nil parts literal none).elim
  | case10 parts literal lastWasExpansion lastPos pos a rest _ _ _ _ ih => exact ih well read

theorem lexToken_wellQuoted {noPending : Bool} {c : Char} {before after : Cursor α}
    {token : Token α} (read : lexToken noPending c before = .ok (token, after)) :
    token.kind.IsWellQuoted := by
  have ofFixed {result : Token α × Cursor α} (other : result.1.kind.isOther = true)
      (read : (.ok result : Except (LexerError α) (Token α × Cursor α)) = .ok (token, after)) :
      token.kind.IsWellQuoted := by
    cases read
    exact TokenKind.isWellQuoted_of_other other
  rw [lexToken.eq_def] at read
  split at read
  · cases read
    rintro parts ⟨⟩
  · cases read
    rintro parts ⟨⟩
  · exact ofFixed (lexAmpersand_other before) read
  · exact ofFixed (lexPipe_other before) read
  · cases read
    rintro parts ⟨⟩
  · exact ofFixed rfl read
  · exact ofFixed rfl read
  · exact ofFixed rfl read
  · exact ofFixed rfl read
  · exact TokenKind.isWellQuoted_of_other (lexVariable_other read)
  · obtain ⟨found, -, returned⟩ := bind_eq_ok.mp read
    cases returned
    exact TokenKind.isWellQuoted_of_other rfl
  · exact TokenKind.isWellQuoted_of_other (lexRedirectOut_other read)
  · exact TokenKind.isWellQuoted_of_other (lexRedirectIn_other read)
  · obtain ⟨found, -, returned⟩ := bind_eq_ok.mp read
    cases returned
    exact TokenKind.isWellQuoted_of_other rfl
  · obtain ⟨found, quoted, returned⟩ := bind_eq_ok.mp read
    cases returned
    rintro parts ⟨⟩
    exact readDoubleQuoted_wellQuoted WellQuoted.nil quoted
  · exact TokenKind.isWellQuoted_of_other (lexWord_other read)

/-- The tokens of an input are quoted as the lexer leaves them. -/
theorem tokenize_wellQuoted {input : List α} {tokens : List (Token α)}
    (read : tokenize input = .ok tokens) : ∀ token ∈ tokens, token.kind.IsWellQuoted := by
  refine @tokenizeFrom_all α _ TokenKind.IsWellQuoted [] [] tokens ⟨0, input⟩ ?_ ?_ read
    fun _ none => absurd none List.not_mem_nil
  · intro noPending before after token next
    obtain ⟨c, -, lexed⟩ := nextToken_some next
    exact lexToken_wellQuoted lexed
  · intro token body held
    obtain ⟨kind, span⟩ := token
    cases kind with
    | hereDoc fd stripTabs delimiter body' quoted => rintro parts ⟨⟩
    | _ => exact held

end Tokens

end OddJobs.Shell
