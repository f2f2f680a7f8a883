import OddJobs.Shell.Parser

/-!
# Substitutions in a text

The text of a substitution is shorter than the text it stands in, so that parsing them one
inside the other comes to an end.
-/

namespace OddJobs.Shell

open Library

section Plain

variable {α : Type}

/-- All texts of substitutions in a token are shorter than the bound. -/
def TokenKind.Within (bound : Nat) (kind : TokenKind α) : Prop :=
  ∀ content ∈ kind.contents, content.length < bound

theorem TokenKind.Within.of_contents {bound : Nat} {kind : TokenKind α} (none : kind.contents = []) :
    kind.Within bound := by
  intro content member
  rw [none] at member
  exact absurd member List.not_mem_nil

theorem withBody_contents (token : Token α) (body : List α) :
    (token.withBody body).kind.contents = token.kind.contents := by
  obtain ⟨kind, span⟩ := token
  cases kind <;> rfl

theorem content_flushLiteral {parts : List (WordPart α (List α))} {literal : List α}
    {boundary : Bool} :
    (flushLiteral parts literal boundary).filterMap WordPart.content =
      parts.filterMap WordPart.content := by
  rw [flushLiteral]
  split
  · rfl
  · rw [List.filterMap_append]
    exact List.append_nil _

end Plain

section Lengths

variable {α : Type} [Letter α]

variable {before after : Cursor α} {token : Token α} {noPending : Bool} {start : Nat}

theorem readBalancedContent_length {opening closing : Char} {content : List α}
    (read : readBalancedContent opening closing start before = .ok (content, after)) :
    content.length < before.rest.length := by
  obtain ⟨last, consumed⟩ := readBalancedContent_ok read
  have counted := consumed.length_eq
  rw [List.length_append, List.length_singleton] at counted
  omega

theorem readBacktickContent_length {content : List α}
    (read : readBacktickContent start before = .ok (content, after)) :
    content.length < before.rest.length := by
  obtain ⟨last, consumed⟩ := readBacktickContent_ok read
  have counted := consumed.length_eq
  rw [List.length_append, List.length_singleton] at counted
  omega

theorem Cursor.next_length (cursor : Cursor α) : cursor.next.rest.length ≤ cursor.rest.length := by
  rw [next]
  split
  · exact Nat.le_refl _
  · rename_i a rest stands
    rw [stands]
    exact Nat.le_succ _

theorem lexQuotedDollar_length {part : WordPart α (List α)} {content : List α}
    (read : lexQuotedDollar start before = .ok (part, after)) (within : part.content = some content) :
    content.length < before.rest.length := by
  rw [lexQuotedDollar] at read
  split at read
  · cases read
    cases within
  · split at read
    · obtain ⟨⟨text, cursor⟩, balanced, returned⟩ := bind_eq_ok.mp read
      cases returned
      cases within
      exact Nat.lt_of_lt_of_le (readBalancedContent_length balanced) before.next_length
    · split at read
      · obtain ⟨⟨⟨name, modifier⟩, cursor⟩, -, returned⟩ := bind_eq_ok.mp read
        cases returned
        cases within
      · split at read <;> cases read <;> cases within

theorem lexQuotedBacktick_length {part : WordPart α (List α)} {content : List α}
    (read : lexQuotedBacktick start before = .ok (part, after))
    (within : part.content = some content) : content.length < before.rest.length := by
  obtain ⟨⟨text, cursor⟩, ticked, returned⟩ := bind_eq_ok.mp read
  cases returned
  cases within
  exact readBacktickContent_length ticked

theorem readDoubleQuoted_length {lastPos pos bound : Nat} {parts found : List (WordPart α (List α))}
    {literal rest content : List α} {lastWasExpansion : Bool}
    (read : readDoubleQuoted start parts literal lastWasExpansion lastPos pos rest =
      .ok (found, after))
    (bounded : rest.length ≤ bound)
    (held : ∀ content ∈ parts.filterMap WordPart.content, content.length < bound)
    (member : content ∈ found.filterMap WordPart.content) : content.length < bound := by
  have withPart {parts : List (WordPart α (List α))} {literal : List α}
      {part : WordPart α (List α)} {boundary : Bool}
      (held : ∀ content ∈ parts.filterMap WordPart.content, content.length < bound)
      (short : ∀ content, part.content = some content → content.length < bound) :
      ∀ content ∈ (flushLiteral parts literal boundary ++ [part]).filterMap WordPart.content,
        content.length < bound := by
    intro content member
    rw [List.filterMap_append, content_flushLiteral, List.mem_append] at member
    rcases member with earlier | last
    · exact held content earlier
    · obtain ⟨found, listed, is⟩ := List.mem_filterMap.mp last
      cases List.mem_singleton.mp listed
      exact short content is
  fun_induction readDoubleQuoted start parts literal lastWasExpansion lastPos pos rest with
  | case1 => cases read
  | case2 parts literal lastWasExpansion lastPos pos a rest closes =>
      cases read
      rw [content_flushLiteral] at member
      exact held content member
  | case3 => cases read
  | case4 => cases read
  | case5 parts literal lastWasExpansion lastPos pos a notClosing escapes b rest after c means ih =>
      refine ih read ?_ held
      simp only [List.length_cons] at bounded
      omega
  | case6 => cases read
  | case7 parts literal lastWasExpansion lastPos pos a rest _ _ dollar part cursor lexed ih =>
      obtain ⟨text, within⟩ := lexQuotedDollar_ok lexed
      have shorter := within.length_eq
      simp only [List.length_cons] at bounded shorter
      refine ih read (by omega) (withPart held fun content is => ?_)
      have short := lexQuotedDollar_length lexed is
      dsimp only at short
      omega
  | case8 => cases read
  | case9 parts literal lastWasExpansion lastPos pos a rest _ _ _ backtick part cursor lexed ih =>
      obtain ⟨text, mark, within⟩ := lexQuotedBacktick_ok lexed
      have shorter := within.length_eq
      simp only [List.length_cons] at bounded shorter
      refine ih read (by omega) (withPart held fun content is => ?_)
      have short := lexQuotedBacktick_length lexed is
      dsimp only at short
      omega
  | case10 parts literal lastWasExpansion lastPos pos a rest _ _ _ _ ih =>
      refine ih read ?_ held
      rw [List.length_cons] at bounded
      omega

/-! ## Tokens of redirections -/

theorem lexDupTarget_contents {source prefixLen : Nat} {output : Bool}
    (read : lexDupTarget start source output prefixLen before = .ok (token, after)) :
    token.kind.contents = [] := by
  rw [lexDupTarget] at read
  dsimp only at read
  split at read
  · cases read
    rfl
  · split at read
    · cases read
    · split at read <;> cases read
      rfl

theorem lexHeredoc_contents {prefixLen : Nat} {fd : Option Nat} {stripTabs : Bool}
    (read : lexHeredoc start fd stripTabs prefixLen before = .ok (token, after)) :
    token.kind.contents = [] := by
  obtain ⟨⟨⟨delimiter, quoted⟩, cursor⟩, -, returned⟩ := bind_eq_ok.mp read
  dsimp only at returned
  split at returned <;> cases returned
  rfl

theorem lexRedirectOut_contents {fd : Option Nat}
    (read : lexRedirectOut start fd before = .ok (token, after)) : token.kind.contents = [] := by
  rw [lexRedirectOut] at read
  split at read
  · cases read
    rfl
  · split at read
    · exact lexDupTarget_contents read
    · cases read
      rfl

theorem lexRedirectIn_contents {fd : Option Nat}
    (read : lexRedirectIn start fd before = .ok (token, after)) : token.kind.contents = [] := by
  rw [lexRedirectIn] at read
  dsimp only at read
  split at read
  · split at read
    · cases read
      rfl
    · split at read
      · exact lexHeredoc_contents read
      · exact lexHeredoc_contents read
  · split at read
    · exact lexDupTarget_contents read
    · cases read
      rfl

theorem lexWord_contents (read : lexWord before = .ok (token, after)) :
    token.kind.contents = [] := by
  rw [lexWord] at read
  dsimp only at read
  split at read
  · cases read
    rfl
  · split at read
    · exact lexRedirectOut_contents read
    · split at read
      · exact lexRedirectIn_contents read
      · cases read
        rfl

/-! ## Tokens with substitutions -/

theorem lexVariable_within {bound : Nat} (bounded : before.rest.length ≤ bound)
    (read : lexVariable before = .ok (token, after)) : token.kind.Within bound := by
  rw [lexVariable] at read
  dsimp only at read
  split at read
  · cases read
  · split at read
    · obtain ⟨⟨text, cursor⟩, balanced, returned⟩ := bind_eq_ok.mp read
      cases returned
      intro content member
      have same : content = text := List.mem_singleton.mp member
      have short := readBalancedContent_length balanced
      rw [← same] at short
      have first := before.next_length
      have second := before.next.next_length
      omega
    · split at read
      · obtain ⟨⟨⟨name, modifier⟩, cursor⟩, -, returned⟩ := bind_eq_ok.mp read
        cases returned
        exact TokenKind.Within.of_contents rfl
      · split at read
        · cases read
          exact TokenKind.Within.of_contents rfl
        · split at read <;> cases read
          exact TokenKind.Within.of_contents rfl

theorem lexBacktickSubstitution_within {bound : Nat} (bounded : before.rest.length ≤ bound)
    (read : lexBacktickSubstitution before = .ok (token, after)) : token.kind.Within bound := by
  obtain ⟨⟨text, cursor⟩, ticked, returned⟩ := bind_eq_ok.mp read
  cases returned
  intro content member
  have same : content = text := List.mem_singleton.mp member
  have short := readBacktickContent_length ticked
  rw [← same] at short
  have first := before.next_length
  omega

theorem lexDoubleQuote_within {bound : Nat} (bounded : before.rest.length ≤ bound)
    (read : lexDoubleQuote before = .ok (token, after)) : token.kind.Within bound := by
  obtain ⟨⟨parts, cursor⟩, quoted, returned⟩ := bind_eq_ok.mp read
  cases returned
  intro content member
  exact readDoubleQuoted_length quoted (Nat.le_trans before.next_length bounded)
    (fun _ none => absurd none List.not_mem_nil) member

theorem lexToken_within {bound : Nat} {c : Char} (bounded : before.rest.length ≤ bound)
    (read : lexToken noPending c before = .ok (token, after)) : token.kind.Within bound := by
  rw [lexToken.eq_def] at read
  split at read
  · cases read
    exact TokenKind.Within.of_contents rfl
  · cases read
    exact TokenKind.Within.of_contents rfl
  · rw [lexAmpersand] at read
    dsimp only at read
    split at read
    · cases read
      exact TokenKind.Within.of_contents rfl
    · split at read
      · split at read <;> cases read <;> exact TokenKind.Within.of_contents rfl
      · cases read
        exact TokenKind.Within.of_contents rfl
  · rw [lexPipe] at read
    split at read <;> cases read <;> exact TokenKind.Within.of_contents rfl
  · cases read
    exact TokenKind.Within.of_contents rfl
  · cases read
    exact TokenKind.Within.of_contents rfl
  · cases read
    exact TokenKind.Within.of_contents rfl
  · cases read
    exact TokenKind.Within.of_contents rfl
  · cases read
    exact TokenKind.Within.of_contents rfl
  · exact lexVariable_within bounded read
  · exact lexBacktickSubstitution_within bounded read
  · exact TokenKind.Within.of_contents (lexRedirectOut_contents read)
  · exact TokenKind.Within.of_contents (lexRedirectIn_contents read)
  · obtain ⟨⟨content, cursor⟩, -, returned⟩ := bind_eq_ok.mp read
    cases returned
    exact TokenKind.Within.of_contents rfl
  · exact lexDoubleQuote_within bounded read
  · exact TokenKind.Within.of_contents (lexWord_contents read)

theorem nextToken_within {bound : Nat} (bounded : before.rest.length ≤ bound)
    (read : nextToken noPending before = .ok (some (token, after))) :
    token.kind.Within bound := by
  obtain ⟨blank, skipped⟩ := skipWhitespace_consumes before
  have shorter := skipped.length_eq
  rw [nextToken] at read
  split at read
  · cases read
  · rename_i c peeked
    rcases lexed : lexToken noPending c (skipWhitespace before) with _ | found
    · rw [lexed] at read
      cases read
    · rw [lexed] at read
      cases read
      exact lexToken_within (by omega) lexed

/-! ## The whole input -/

theorem capturePendingHeredocs_within {bound : Nat} {tokens found : List (Token α)}
    {pending : List (PendingHereDoc α)}
    (read : capturePendingHeredocs tokens before pending = .ok (found, after))
    (held : ∀ token ∈ tokens, token.kind.Within bound) :
    ∀ token ∈ found, token.kind.Within bound := by
  induction pending generalizing tokens before with
  | nil =>
      cases read
      exact held
  | cons first later ih =>
      rw [capturePendingHeredocs] at read
      split at read
      · cases read
      · rename_i body cursor captured
        refine ih read fun token member => ?_
        obtain ⟨index, inside, is⟩ := List.mem_iff_getElem.mp member
        rw [List.getElem_modify] at is
        rw [List.length_modify] at inside
        have old := held _ (List.getElem_mem inside)
        split at is
        · subst is
          intro content member
          rw [withBody_contents] at member
          exact old content member
        · subst is
          exact old

theorem tokenizeFrom_within {bound : Nat} {pending : List (PendingHereDoc α)}
    {tokens found : List (Token α)} {cursor : Cursor α}
    (read : tokenizeFrom pending tokens cursor = .ok found) (bounded : cursor.rest.length ≤ bound)
    (held : ∀ token ∈ tokens, token.kind.Within bound) :
    ∀ token ∈ found, token.kind.Within bound := by
  have withToken {tokens : List (Token α)} {token : Token α}
      (held : ∀ token ∈ tokens, token.kind.Within bound) (within : token.kind.Within bound) :
      ∀ other ∈ tokens ++ [token], other.kind.Within bound := by
    intro other member
    rcases List.mem_append.mp member with earlier | last
    · exact held other earlier
    · rw [List.mem_singleton.mp last]
      exact within
  fun_induction tokenizeFrom pending tokens cursor with
  | case1 => cases read
  | case2 =>
      cases read
      exact held
  | case3 => cases read
  | case4 => cases read
  | case5 pending tokens cursor token after lexed newline captured middle read' ih =>
      obtain ⟨text, consumed⟩ := capturePendingHeredocs_consumes read'
      have shorter := ((nextToken_advances lexed).trans consumed).shorter
      exact ih read (by omega)
        (capturePendingHeredocs_within read' (withToken held (nextToken_within bounded lexed)))
  | case6 pending tokens cursor token after lexed other ih =>
      have shorter := (nextToken_advances lexed).shorter
      exact ih read (by omega) (withToken held (nextToken_within bounded lexed))

end Lengths

/-! ## Parsing inside out -/

theorem tokenize_within {input : List Char} {tokens : List (Token Char)}
    (read : tokenize input = .ok tokens) :
    ∀ token ∈ tokens, token.kind.Within input.length :=
  tokenizeFrom_within read (Nat.le_refl _) fun _ none => absurd none List.not_mem_nil

/-- The parts of a token depend on how the texts in it are parsed only. -/
theorem tokenToParts_congr {parse parse' : List Char → Except ParseError CommandList}
    {token : Token Char} (agree : ∀ content ∈ token.kind.contents, parse content = parse' content) :
    tokenToParts parse token = tokenToParts parse' token := by
  obtain ⟨kind, span⟩ := token
  cases kind with
  | doubleQuoted parts =>
      rw [tokenToParts, tokenToParts]
      dsimp only
      split
      · rfl
      · refine mapM_congr fun part member => ?_
        cases part with
        | commandSubstitution content backtick =>
            have same := agree content (List.mem_filterMap.mpr ⟨_, member, rfl⟩)
            rw [resolvePart, resolvePart, parseCommandSubstitution, parseCommandSubstitution, same]
        | literal value quoted => rfl
        | var name modifier => rfl
  | commandSubstitution content backtick =>
      have same := agree content (List.mem_singleton.mpr rfl)
      rw [tokenToParts, tokenToParts]
      dsimp only
      rw [parseCommandSubstitution, parseCommandSubstitution, same]
  | _ => rfl

/-- Parsing does not depend on the fuel, where there is enough of it. -/
theorem parseNested_stable {depth depth' : Nat} {input : List Char} (enough : input.length < depth)
    (enough' : input.length < depth') : parseNested depth input = parseNested depth' input := by
  induction depth generalizing depth' input with
  | zero => exact absurd enough (Nat.not_lt_zero _)
  | succ depth ih =>
      cases depth' with
      | zero => exact absurd enough' (Nat.not_lt_zero _)
      | succ depth' =>
          rw [parseNested, parseNested]
          rcases read : tokenize input with error | tokens
          · rfl
          · dsimp only
            congr 1
            refine List.map_congr_left fun token member => ?_
            have within := tokenize_within read token member
            have same : tokenToParts (parseNested depth) token =
                tokenToParts (parseNested depth') token :=
              tokenToParts_congr fun content inside => by
                have shorter := within content inside
                exact ih (by omega) (by omega)
            simp only [Token.parsed, same]

/-- The parser parses the texts of substitutions by itself. -/
theorem parse_eq (input : List Char) :
    Parser.parse input =
      match tokenize input with
      | .error error => .error (.lexer error)
      | .ok tokens =>
          parseCommandList (input.map size).sum (tokens.map (Token.parsed Parser.parse)) := by
  rw [Parser.parse, parseNested]
  rcases read : tokenize input with error | tokens
  · rfl
  · dsimp only
    congr 1
    refine List.map_congr_left fun token member => ?_
    have within := tokenize_within read token member
    have same : tokenToParts (parseNested input.length) token =
        tokenToParts Parser.parse token :=
      tokenToParts_congr fun content inside =>
        parseNested_stable (within content inside) (Nat.lt_succ_self _)
    simp only [Token.parsed, same]

end OddJobs.Shell
