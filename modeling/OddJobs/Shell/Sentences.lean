import OddJobs.Shell.Completeness

/-!
# Sentences of the shell

The parser and the grammar agree, also on the texts of substitutions: these are sentences
themselves.
-/

namespace OddJobs.Shell

open Library

section Tokens

variable {Body : List Char → CommandList → Prop}
  {parse : List Char → Except ParseError CommandList}

/-- What is parsed in a substitution is what the grammar takes its text for. -/
theorem parseCommandSubstitution_ok {content : List Char} {backtick : Bool} {span : Span}
    {part : WordPart Char CommandList}
    (converted : parseCommandSubstitution parse content backtick span = .ok part) :
    ∃ body, parse content = .ok body ∧ part = .commandSubstitution body backtick := by
  rw [parseCommandSubstitution] at converted
  split at converted
  · cases converted
  · rename_i body parsed
    cases converted
    exact ⟨body, parsed, rfl⟩

theorem resolvePart_sound (sound : ∀ content body, parse content = .ok body → Body content body)
    {span : Span} {part : WordPart Char (List Char)} {resolved : WordPart Char CommandList}
    (converted : resolvePart parse span part = .ok resolved) : PartOf Body part resolved := by
  cases part with
  | literal value quoted =>
      cases converted
      exact PartOf.literal value quoted
  | var name modifier =>
      cases converted
      exact PartOf.var name modifier
  | commandSubstitution content backtick =>
      obtain ⟨body, parsed, rfl⟩ := parseCommandSubstitution_ok converted
      exact PartOf.commandSubstitution backtick (sound content body parsed)

theorem parsed_sound (sound : ∀ content body, parse content = .ok body → Body content body)
    (token : Token Char) : (token.parsed parse).Sound Body := by
  obtain ⟨kind, span⟩ := token
  intro parts converted isPart
  replace converted : tokenToParts parse ⟨kind, span⟩ = .ok parts := converted
  cases kind with
  | word word =>
      cases converted
      exact PartsOf.word word
  | singleQuoted content =>
      cases converted
      exact PartsOf.singleQuoted content
  | var name modifier =>
      cases converted
      exact PartsOf.var name modifier
  | doubleQuoted inside =>
      rw [tokenToParts] at converted
      dsimp only at converted
      split at converted
      · rename_i none
        cases converted
        subst none
        exact PartsOf.emptyQuoted
      · rename_i some
        refine PartsOf.doubleQuoted some ?_
        exact (mapM_eq_ok.mp converted).imp fun _ _ resolved => resolvePart_sound sound resolved
  | commandSubstitution content backtick =>
      rw [tokenToParts] at converted
      obtain ⟨part, resolved, returned⟩ := bind_eq_ok.mp converted
      cases returned
      obtain ⟨body, parsed, rfl⟩ := parseCommandSubstitution_ok resolved
      exact PartsOf.commandSubstitution backtick (sound content body parsed)
  | _ => cases isPart

theorem parseCommandSubstitution_complete
    (complete : ∀ content body, Body content body → ∃ found, parse content = .ok found)
    {content : List Char} {body : CommandList} (backtick : Bool) (span : Span)
    (of : Body content body) :
    ∃ part, parseCommandSubstitution parse content backtick span = .ok part := by
  obtain ⟨found, parsed⟩ := complete content body of
  refine ⟨.commandSubstitution found backtick, ?_⟩
  rw [parseCommandSubstitution, parsed]

theorem resolveParts_complete
    (complete : ∀ content body, Body content body → ∃ found, parse content = .ok found)
    (span : Span) {parts : List (WordPart Char (List Char))}
    {resolved : List (WordPart Char CommandList)} (all : List.Forall₂ (PartOf Body) parts resolved) :
    ∃ found, parts.mapM (resolvePart parse span) = .ok found := by
  induction all with
  | nil => exact ⟨[], rfl⟩
  | @cons part value _ _ first others ih =>
      obtain ⟨later, parsed⟩ := ih
      have one : ∃ found, resolvePart parse span part = .ok found := by
        cases first with
        | literal value quoted => exact ⟨_, rfl⟩
        | var name modifier => exact ⟨_, rfl⟩
        | commandSubstitution backtick of =>
            exact parseCommandSubstitution_complete complete backtick span of
      obtain ⟨part, resolved⟩ := one
      refine ⟨part :: later, ?_⟩
      rw [List.mapM_cons]
      exact bind_eq_ok.mpr ⟨part, resolved, bind_eq_ok.mpr ⟨later, parsed, rfl⟩⟩

theorem parsed_complete
    (complete : ∀ content body, Body content body → ∃ found, parse content = .ok found)
    (token : Token Char) : (token.parsed parse).Complete Body := by
  obtain ⟨kind, span⟩ := token
  intro parts brings
  cases brings with
  | word word => exact ⟨_, rfl⟩
  | singleQuoted content => exact ⟨_, rfl⟩
  | emptyQuoted => exact ⟨_, rfl⟩
  | var name modifier => exact ⟨_, rfl⟩
  | @doubleQuoted inside resolved some all =>
      obtain ⟨found, returned⟩ := resolveParts_complete complete span all
      have converted : tokenToParts parse ⟨.doubleQuoted inside, span⟩ = .ok found := by
        rw [tokenToParts]
        dsimp only
        rw [if_neg some]
        exact returned
      exact ⟨found, converted⟩
  | @commandSubstitution content body backtick of =>
      obtain ⟨part, returned⟩ := parseCommandSubstitution_complete complete backtick span of
      exact ⟨[part], bind_eq_ok.mpr ⟨part, returned, rfl⟩⟩

theorem map_parsed (parse : List Char → Except ParseError CommandList) (tokens : List (Token Char)) :
    (tokens.map (Token.parsed parse)).map ParsedToken.token = tokens := by
  rw [List.map_map]
  exact List.map_id tokens

theorem parsedTokens_sound
    (sound : ∀ content body, parse content = .ok body → Body content body) {inputLen : Nat}
    {tokens : List (Token Char)} {list : CommandList}
    (parsed : parseCommandList inputLen (tokens.map (Token.parsed parse)) = .ok list) :
    ListOf Body (lexemes tokens) list := by
  rw [← map_parsed parse tokens]
  refine parseCommandList_sound ?_ parsed
  intro token member
  obtain ⟨plain, -, rfl⟩ := List.mem_map.mp member
  exact parsed_sound sound plain

theorem parsedTokens_complete
    (complete : ∀ content body, Body content body → ∃ found, parse content = .ok found)
    (inputLen : Nat) {tokens : List (Token Char)} {list : CommandList}
    (of : ListOf Body (lexemes tokens) list) :
    ∃ found, parseCommandList inputLen (tokens.map (Token.parsed parse)) = .ok found := by
  rw [← map_parsed parse tokens] at of
  refine parseCommandList_complete inputLen ?_ of
  intro token member
  obtain ⟨plain, -, rfl⟩ := List.mem_map.mp member
  exact parsed_complete complete plain

end Tokens

/-! ## Sentences are what is parsed -/

theorem parseNested_sentence {depth : Nat} {input : List Char} {list : CommandList}
    (parsed : parseNested depth input = .ok list) : SentenceWithin depth input list := by
  induction depth generalizing input list with
  | zero => cases parsed
  | succ depth ih =>
      rw [parseNested] at parsed
      split at parsed
      · cases parsed
      · rename_i tokens lexed
        exact ⟨tokens, lexed, parsedTokens_sound (fun _ _ => ih) parsed⟩

/-- What is parsed is a sentence. -/
theorem Sentence.of_parse {input : List Char} {list : CommandList}
    (parsed : Parser.parse input = .ok list) : Sentence input list :=
  ⟨input.length + 1, parseNested_sentence parsed⟩

theorem SentenceWithin.parses {depth : Nat} {input : List Char} {list : CommandList}
    (sentence : SentenceWithin depth input list) : ∃ found, Parser.parse input = .ok found := by
  induction depth generalizing input list with
  | zero => exact sentence.elim
  | succ depth ih =>
      obtain ⟨tokens, lexed, of⟩ := sentence
      rw [parse_eq, lexed]
      have complete : ∀ content body, SentenceWithin depth content body →
          ∃ found, Parser.parse content = .ok found := fun _ _ within => ih within
      exact parsedTokens_complete complete _ of

/-- A sentence is parsed. -/
theorem Sentence.parses {input : List Char} {list : CommandList}
    (sentence : Sentence input list) : ∃ found, Parser.parse input = .ok found := by
  obtain ⟨depth, within⟩ := sentence
  exact within.parses

/-- The parser accepts the token lists of the grammar and no others, and what it builds is a
tree of all the tokens in their order. -/
theorem parseCommandList_derives (inputLen : Nat) (tokens : List (Token Char)) :
    ((∃ list, parseCommandList inputLen (tokens.map (Token.parsed Parser.parse)) = .ok list) ↔
      ∃ list, ListOf Sentence (lexemes tokens) list) ∧
    (∀ list, parseCommandList inputLen (tokens.map (Token.parsed Parser.parse)) = .ok list →
      ListOf Sentence (lexemes tokens) list) ∧
    (lexemes tokens).flatMap Lexeme.tokens = tokens := by
  have sound : ∀ list, parseCommandList inputLen (tokens.map (Token.parsed Parser.parse)) =
      .ok list → ListOf Sentence (lexemes tokens) list :=
    fun list parsed => parsedTokens_sound (fun _ _ => Sentence.of_parse) parsed
  refine ⟨⟨?_, ?_⟩, sound, flatMap_lexemes tokens⟩
  · rintro ⟨list, parsed⟩
    exact ⟨list, sound list parsed⟩
  · rintro ⟨list, of⟩
    have complete : ∀ content body, Sentence content body →
        ∃ found, Parser.parse content = .ok found := fun _ _ sentence => sentence.parses
    exact parsedTokens_complete complete inputLen of

/-- The tree does not tell where a redirection stands among the words of its command, and so
the tokens cannot be read from it in their order. -/
theorem parseCommandList_forgets_order :
    ¬∃ read : CommandList → List (TokenKind Char),
      ∀ (input : List Char) (tokens : List (Token Char)) (list : CommandList),
        tokenize input = .ok tokens →
          parseCommandList (input.map size).sum (tokens.map (Token.parsed Parser.parse)) =
            .ok list →
          read list = (tokens.map (·.kind)).filter (!·.isSeparator) := by
  rintro ⟨read, reads⟩
  let before : List (Token Char) := [⟨.word "echo".toList, ⟨0, 4⟩⟩,
    ⟨.duplicateFd 2 (.fd 1) true, ⟨5, 9⟩⟩, ⟨.word "a".toList, ⟨10, 11⟩⟩, ⟨.semi, ⟨16, 17⟩⟩]
  let behind : List (Token Char) := [⟨.word "echo".toList, ⟨0, 4⟩⟩,
    ⟨.word "a".toList, ⟨10, 11⟩⟩, ⟨.duplicateFd 2 (.fd 1) true, ⟨12, 16⟩⟩, ⟨.semi, ⟨16, 17⟩⟩]
  have lexedBefore : tokenize "echo 2>&1 a     ;".toList = .ok before := by decide +kernel
  have lexedBehind : tokenize "echo      a 2>&1;".toList = .ok behind := by decide +kernel
  have accepted : (parseCommandList 17 (before.map (Token.parsed Parser.parse))).isOk = true := by
    decide +kernel
  have same : parseCommandList 17 (behind.map (Token.parsed Parser.parse)) =
      parseCommandList 17 (before.map (Token.parsed Parser.parse)) := by
    with_unfolding_all rfl
  rcases parsed : parseCommandList 17 (before.map (Token.parsed Parser.parse)) with error | list
  · rw [parsed] at accepted
    cases accepted
  · have first := reads _ _ list lexedBefore parsed
    have second := reads _ _ list lexedBehind (same.trans parsed)
    rw [first] at second
    revert second
    decide

end OddJobs.Shell
