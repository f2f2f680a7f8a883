import OddJobs.Shell.Soundness

/-!
# What the parser accepts

Where the tokens are those of a tree of the grammar, the parser builds a tree of them.
-/

namespace OddJobs.Shell

open Library

section Completeness

variable (Body : List Char → CommandList → Prop)

/-- A token that brings parts to a word is converted to parts. -/
def ParsedToken.Complete (token : ParsedToken) : Prop :=
  ∀ parts, PartsOf Body token.kind parts → ∃ converted, token.parts = .ok converted

variable {Body}

/-! ## What stands at a position -/

section Positions

variable {tokens : Tokens} {later : List Lexeme}

theorem Tokens.ended_of_lexemes (ended : tokens.lexemes = []) : tokens.rest = [] := by
  rw [Tokens.lexemes] at ended
  have none := flatMap_lexemes (tokens.rest.map ParsedToken.token)
  rw [ended] at none
  exact List.map_eq_nil_iff.mp none.symm

theorem Tokens.mark_of_lexemes {mark : Token Char} (stands : tokens.lexemes = .mark mark :: later) :
    ∃ token rest, tokens.rest = token :: rest ∧ token.token = mark ∧
      token.kind.isWordPart = false := by
  rw [Tokens.lexemes] at stands
  rcases at_ : tokens.rest with _ | ⟨token, rest⟩
  · rw [at_, List.map_nil, Shell.lexemes] at stands
    cases stands
  · rw [at_, List.map_cons, Shell.lexemes] at stands
    split at stands
    · cases stands
    · rename_i other
      cases stands
      exact ⟨token, rest, rfl, rfl, Bool.eq_false_iff.mpr other⟩

theorem Tokens.word_of_lexemes {run : List (Token Char)}
    (stands : tokens.lexemes = .word run :: later) :
    ∃ token rest, tokens.rest = token :: rest ∧ token.kind.isWordPart = true ∧
      run = token.token :: (adjacentRun token.span.stop (rest.map ParsedToken.token)).1 := by
  rw [Tokens.lexemes] at stands
  rcases at_ : tokens.rest with _ | ⟨token, rest⟩
  · rw [at_, List.map_nil, Shell.lexemes] at stands
    cases stands
  · rw [at_, List.map_cons, Shell.lexemes] at stands
    split at stands
    · rename_i isPart
      cases stands
      exact ⟨token, rest, rfl, isPart, rfl⟩
    · cases stands

theorem Tokens.lexemes_word {token : ParsedToken} {rest : List ParsedToken}
    (stands : tokens.rest = token :: rest) (isPart : token.kind.isWordPart = true) :
    tokens.lexemes =
      .word (token.token :: (adjacentRun token.span.stop (rest.map ParsedToken.token)).1) ::
        Shell.lexemes (adjacentRun token.span.stop (rest.map ParsedToken.token)).2 := by
  rw [Tokens.lexemes, stands, List.map_cons, Shell.lexemes, if_pos isPart]

/-- The mark at a position is read by advancing. -/
theorem Reads.of_lexemes {mark : Token Char} (stands : tokens.lexemes = .mark mark :: later) :
    Reads tokens [.mark mark] tokens.advance := by
  obtain ⟨token, rest, at_, rfl, other⟩ := Tokens.mark_of_lexemes stands
  exact Reads.mark at_ other

theorem Tokens.peekKind_of_lexemes {mark : Token Char}
    (stands : tokens.lexemes = .mark mark :: later) : tokens.peekKind = some mark.kind := by
  obtain ⟨token, rest, at_, rfl, -⟩ := Tokens.mark_of_lexemes stands
  rw [peekKind, at_]
  rfl

/-- What is read from the front leaves the rest. -/
theorem Reads.left {before after : Tokens} {front : List Lexeme} (reads : Reads before front after)
    (stands : before.lexemes = front ++ later) : after.lexemes = later :=
  List.append_cancel_left (reads.lexemes_eq.symm.trans stands)

theorem Reads.complete {before after : Tokens} {front : List Lexeme}
    (reads : Reads before front after) (complete : ∀ token ∈ before.rest, token.Complete Body) :
    ∀ token ∈ after.rest, token.Complete Body :=
  fun token member => complete token (reads.suffix.subset member)

theorem Reads.length_le {before after : Tokens} {front : List Lexeme}
    (reads : Reads before front after) : after.rest.length ≤ before.rest.length :=
  reads.suffix.length_le

/-- A position that has read something stands behind the one before. -/
theorem Reads.length_lt {before after : Tokens} {lexeme : Lexeme} {front : List Lexeme}
    (reads : Reads before (lexeme :: front) after) :
    after.rest.length < before.rest.length := by
  refine Nat.lt_of_le_of_ne reads.length_le fun same => ?_
  have equal := reads.suffix.eq_of_length same
  have read := reads.lexemes_eq
  rw [Tokens.lexemes, Tokens.lexemes, equal] at read
  have counted := congrArg List.length read
  rw [List.length_append, List.length_cons] at counted
  omega

end Positions

/-! ## Words -/

theorem collectAdjacentParts_complete (stop : Nat) (parts : List (WordPart Char CommandList))
    {more : List (WordPart Char CommandList)} {before : Tokens}
    (complete : ∀ token ∈ before.rest, token.Complete Body)
    (run : RunOf Body (adjacentRun stop (before.rest.map ParsedToken.token)).1 more) :
    ∃ found after, collectAdjacentParts stop parts before = .ok (found, after) ∧
      after.rest.map ParsedToken.token =
        (adjacentRun stop (before.rest.map ParsedToken.token)).2 ∧
      after.rest <:+ before.rest := by
  have atWord {token : ParsedToken} {rest : List ParsedToken}
      (isPart : token.kind.isWordPart = true) :
      adjacentRun token.span.start ((token :: rest).map ParsedToken.token) =
        (token.token :: (adjacentRun token.span.stop (rest.map ParsedToken.token)).1,
          (adjacentRun token.span.stop (rest.map ParsedToken.token)).2) := by
    rw [List.map_cons, adjacentRun, if_pos ⟨isPart, rfl⟩]
  have atOther {stop : Nat} {token : ParsedToken} {rest : List ParsedToken}
      (ends : ¬(token.kind.isWordPart = true ∧ token.span.start = stop)) :
      adjacentRun stop ((token :: rest).map ParsedToken.token) =
        ([], (token :: rest).map ParsedToken.token) := by
    rw [List.map_cons, adjacentRun, if_neg ends]
  fun_induction collectAdjacentParts stop parts before generalizing more with
  | case1 stop parts before stands =>
      exact ⟨_, _, rfl, by rw [stands]; rfl, List.suffix_refl _⟩
  | case2 parts before token rest stands error failed =>
      have isPart : token.kind.isWordPart = true := by
        by_contra other
        have none := token.parts_eq_nil.mpr (Bool.eq_false_iff.mpr other)
        rw [failed] at none
        cases none
      rw [stands, atWord isPart] at run
      cases run with
      | cons brings later =>
          obtain ⟨converted, returned⟩ :=
            complete token (stands ▸ List.mem_cons_self) _ brings
          rw [failed] at returned
          cases returned
  | case3 parts before token rest stands converted =>
      have other := ParsedToken.not_isWordPart_of_parts converted
      refine ⟨_, _, rfl, ?_, List.suffix_refl _⟩
      rw [stands, atOther fun held => Bool.false_ne_true (other.symm.trans held.1)]
  | case4 parts before token rest stands part more' converted ih =>
      have isPart := ParsedToken.isWordPart_of_parts converted
      have advanced : before.advance.rest = rest := by rw [Tokens.advance, stands]
      rw [stands, atWord isPart] at run
      cases run with
      | cons brings later =>
          obtain ⟨found, after, collected, left, suffix⟩ := ih
            (fun other member => complete other (by
              rw [stands]
              rw [advanced] at member
              exact List.mem_cons_of_mem token member)) (advanced.symm ▸ later)
          rw [advanced] at left suffix
          refine ⟨found, after, collected, ?_, ?_⟩
          · rw [left, stands, atWord isPart]
          · rw [stands]
            exact suffix.trans (List.suffix_cons token rest)
  | case5 stop parts before token rest stands apart =>
      refine ⟨_, _, rfl, ?_, List.suffix_refl _⟩
      rw [stands, atOther fun held => apart held.2]

theorem parseWord_complete {before : Tokens} {run : List (Token Char)} {later : List Lexeme}
    {parts : List (WordPart Char CommandList)}
    (complete : ∀ token ∈ before.rest, token.Complete Body)
    (stands : before.lexemes = .word run :: later) (of : RunOf Body run parts) :
    ∃ word after, parseWord before = .ok (some word, after) ∧ Reads before [.word run] after := by
  obtain ⟨token, rest, at_, isPart, rfl⟩ := Tokens.word_of_lexemes stands
  have advanced : before.advance.rest = rest := by rw [Tokens.advance, at_]
  cases of with
  | cons brings adjacent =>
      obtain ⟨converted, returned⟩ := complete token (at_ ▸ List.mem_cons_self) _ brings
      cases converted with
      | nil =>
          have other := ParsedToken.not_isWordPart_of_parts returned
          exact absurd (other.symm.trans isPart) Bool.false_ne_true
      | cons part more =>
          obtain ⟨⟨stop, found⟩, after, collected, left, suffix⟩ :=
            collectAdjacentParts_complete token.span.stop (part :: more)
              (fun other member => complete other (by
                rw [at_]
                rw [advanced] at member
                exact List.mem_cons_of_mem token member)) (advanced.symm ▸ adjacent)
          rw [advanced] at left suffix
          refine ⟨⟨found, token.span.start, stop⟩, after, ?_, Reads.word at_ isPart left suffix⟩
          rw [parseWord, at_]
          dsimp only
          rw [returned]
          dsimp only
          rw [collected]
          rfl

/-- Where no word stands, none is read. -/
theorem parseWord_none {before : Tokens} (other : ∀ run later, before.lexemes ≠ .word run :: later) :
    parseWord before = .ok (none, before) := by
  rw [parseWord]
  split
  · rfl
  · rename_i token rest stands
    have notPart : token.kind.isWordPart = false := by
      rw [← Bool.not_eq_true]
      intro isPart
      exact other _ _ (Tokens.lexemes_word stands isPart)
    rw [token.parts_eq_nil.mpr notPart]

/-! ## Redirections -/

theorem requireWord_complete (expected : String) {before : Tokens} {run : List (Token Char)}
    {later : List Lexeme} {parts : List (WordPart Char CommandList)}
    (complete : ∀ token ∈ before.rest, token.Complete Body)
    (stands : before.lexemes = .word run :: later) (of : RunOf Body run parts) :
    ∃ word after, requireWord expected before = .ok (word, after) ∧
      Reads before [.word run] after := by
  obtain ⟨word, after, read, reads⟩ := parseWord_complete complete stands of
  refine ⟨word, after, ?_, reads⟩
  rw [requireWord, read]
  rfl

theorem parseTarget_complete (expected : String)
    (build : Word CommandList → Redirection CommandList) {before : Tokens}
    {run : List (Token Char)} {later : List Lexeme} {parts : List (WordPart Char CommandList)}
    (complete : ∀ token ∈ before.rest, token.Complete Body)
    (stands : before.lexemes = .word run :: later) (of : RunOf Body run parts) :
    ∃ redirection after, parseTarget expected build before = .ok (redirection, after) ∧
      Reads before [.word run] after := by
  obtain ⟨word, after, read, reads⟩ := requireWord_complete expected complete stands of
  refine ⟨build word, after, ?_, reads⟩
  rw [parseTarget, read]
  rfl

theorem parseRedirection_complete {before : Tokens} {front later : List Lexeme}
    {redirection : Redirection CommandList}
    (complete : ∀ token ∈ before.rest, token.Complete Body)
    (stands : before.lexemes = front ++ later) (of : RedirectionOf Body front redirection) :
    ∃ token rest found after, before.rest = token :: rest ∧ token.kind.isRedirection = true ∧
      parseRedirection token.kind before.advance = .ok (found, after) ∧
      Reads before front after := by
  have alone {mark : Token Char} {found : Redirection CommandList}
      (stands : before.lexemes = .mark mark :: later) (redirects : mark.kind.isRedirection = true)
      (parsed : ∀ tokens, parseRedirection mark.kind tokens = .ok (found, tokens)) :
      ∃ token rest found after, before.rest = token :: rest ∧ token.kind.isRedirection = true ∧
        parseRedirection token.kind before.advance = .ok (found, after) ∧
        Reads before [.mark mark] after := by
    obtain ⟨token, rest, at_, rfl, -⟩ := Tokens.mark_of_lexemes stands
    exact ⟨token, rest, found, before.advance, at_, redirects, parsed _, Reads.of_lexemes stands⟩
  have withWord {mark : Token Char} {run : List (Token Char)}
      {parts : List (WordPart Char CommandList)} {expected : String}
      {build : Word CommandList → Redirection CommandList}
      (stands : before.lexemes = .mark mark :: .word run :: later)
      (redirects : mark.kind.isRedirection = true) (of : RunOf Body run parts)
      (parsed : ∀ tokens, parseRedirection mark.kind tokens = parseTarget expected build tokens) :
      ∃ token rest found after, before.rest = token :: rest ∧ token.kind.isRedirection = true ∧
        parseRedirection token.kind before.advance = .ok (found, after) ∧
        Reads before [.mark mark, .word run] after := by
    obtain ⟨token, rest, at_, rfl, -⟩ := Tokens.mark_of_lexemes stands
    have reads := Reads.of_lexemes stands
    obtain ⟨found, after, read, target⟩ :=
      parseTarget_complete expected build (reads.complete complete)
        (reads.left stands) of
    exact ⟨token, rest, found, after, at_, redirects, (parsed _).trans read, reads.trans target⟩
  cases of with
  | @output fd run target span of =>
      exact @withWord _ _ _ _ (.output fd · false) stands rfl of fun _ => rfl
  | @append fd run target span of =>
      exact @withWord _ _ _ _ (.output fd · true) stands rfl of fun _ => rfl
  | input of => exact withWord stands rfl of fun _ => rfl
  | hereDoc => exact alone stands rfl fun _ => rfl
  | hereString of => exact withWord stands rfl of fun _ => rfl
  | both of => exact withWord stands rfl of fun _ => rfl
  | duplicate => exact alone stands rfl fun _ => rfl

/-! ## What may follow -/

end Completeness

namespace TokenKind

def isChainEnd : TokenKind Char → Bool
  | semi => true
  | newline => true
  | rParen => true
  | rBrace => true
  | _ => false

def isItemEnd (kind : TokenKind Char) : Bool := kind = and || kind = or || kind.isChainEnd

def isCommandEnd (kind : TokenKind Char) : Bool := kind = ampersand || kind.isItemEnd

def isSimpleEnd (kind : TokenKind Char) : Bool := kind = pipe || kind.isCommandEnd

theorem isSimpleEnd_notRedirection {kind : TokenKind Char} (ends : kind.isSimpleEnd = true) :
    kind.isRedirection = false := by
  cases kind <;> first | rfl | simp [isSimpleEnd, isCommandEnd, isItemEnd, isChainEnd] at ends

end TokenKind

/-- What follows, if anything does, is a mark that ends what stands before it. -/
def Follows (ends : TokenKind Char → Bool) (later : List Lexeme) : Prop :=
  ∀ lexeme rest, later = lexeme :: rest → ∃ token, lexeme = .mark token ∧ ends token.kind = true

namespace Follows

variable {ends others : TokenKind Char → Bool} {later : List Lexeme} {tokens : Tokens}

theorem nil : Follows ends [] := by
  intro lexeme rest some
  cases some

theorem mark {token : Token Char} (is : ends token.kind = true) :
    Follows ends (.mark token :: later) := by
  rintro _ _ ⟨⟩
  exact ⟨token, rfl, is⟩

theorem mono (follows : Follows ends later) (implies : ∀ kind, ends kind = true → others kind = true) :
    Follows others later := by
  intro lexeme rest stands
  obtain ⟨token, is, ended⟩ := follows lexeme rest stands
  exact ⟨token, is, implies token.kind ended⟩

/-- No word begins there. -/
theorem no_word (follows : Follows ends tokens.lexemes) (run : List (Token Char))
    (later : List Lexeme) : tokens.lexemes ≠ .word run :: later := by
  intro stands
  obtain ⟨token, is, -⟩ := follows _ _ stands
  cases is

/-- The next token ends what stands before. -/
theorem ends_next (follows : Follows ends tokens.lexemes) {token : ParsedToken}
    {rest : List ParsedToken} (stands : tokens.rest = token :: rest) : ends token.kind = true := by
  by_cases isPart : token.kind.isWordPart = true
  · exact (follows.no_word _ _ (Tokens.lexemes_word stands isPart)).elim
  · obtain ⟨mark, is, ended⟩ := follows _ _
      (Reads.mark stands (Bool.eq_false_iff.mpr isPart)).lexemes_eq
    cases is
    exact ended

end Follows

section Completeness

variable {Body : List Char → CommandList → Prop}

theorem parseRedirections_complete (redirections : List (Redirection CommandList)) (stop : Nat)
    {before : Tokens} {front later : List Lexeme} {given : List (Redirection CommandList)}
    (complete : ∀ token ∈ before.rest, token.Complete Body)
    (stands : before.lexemes = front ++ later) (follows : Follows TokenKind.isSimpleEnd later)
    (of : RedirectionsOf Body front given) :
    ∃ found after, parseRedirections redirections stop before = .ok (found, after) ∧
      Reads before front after := by
  induction of generalizing before redirections stop with
  | nil =>
      rw [List.nil_append] at stands
      subst stands
      refine ⟨(redirections, stop), before, ?_, Reads.nothing before⟩
      rw [parseRedirections]
      split
      · rfl
      · rename_i token rest at_
        have other := TokenKind.isSimpleEnd_notRedirection (follows.ends_next at_)
        rw [if_neg (by rw [other]; exact Bool.false_ne_true)]
  | cons first rest ih =>
      rw [List.append_assoc] at stands
      obtain ⟨token, others, redirection, middle, at_, redirects, read, reads⟩ :=
        parseRedirection_complete complete stands first
      obtain ⟨found, after, parsed, all⟩ := ih _ _ (reads.complete complete) (reads.left stands)
      refine ⟨found, after, ?_, reads.trans all⟩
      rw [parseRedirections]
      split
      · rename_i ended
        rw [ended] at at_
        cases at_
      · rename_i next more stood
        rw [stood] at at_
        cases at_
        rw [if_pos redirects]
        split
        · rename_i failed
          rw [read] at failed
          cases failed
        · rename_i redirection' middle' read'
          rw [read] at read'
          cases read'
          exact parsed

/-! ## Simple commands -/

/-- An assignment of the grammar begins with its token. -/
theorem AssignmentOf.head {run : List (Token Char)} {assignment : EnvAssignment CommandList}
    (of : AssignmentOf Body run assignment) :
    ∃ text span name value adjacent parts, run = ⟨.word text, span⟩ :: adjacent ∧
      tryParseAssignmentWord text = some (name, value) ∧ RunOf Body adjacent parts := by
  cases of with
  | @mk token adjacent name value parts valueSpan span assigns of =>
      obtain ⟨kind, at_⟩ := token
      cases kind with
      | word text => exact ⟨text, at_, name, value, adjacent, parts, rfl, assigns, of⟩
      | _ => cases assigns

theorem parseEnv_complete (env : List (EnvAssignment CommandList)) {before : Tokens}
    {front later : List Lexeme} {given : List (EnvAssignment CommandList)}
    (complete : ∀ token ∈ before.rest, token.Complete Body)
    (stands : before.lexemes = front ++ later)
    (plain : ∀ run rest, later = .word run :: rest → beginsAssignment run = false)
    (of : EnvOf Body front given) :
    ∃ found after, parseEnv env before = .ok (found, after) ∧ Reads before front after ∧
      found.length = env.length + given.length := by
  induction of generalizing before env with
  | nil =>
      rw [List.nil_append] at stands
      subst stands
      refine ⟨env, before, ?_, Reads.nothing before, rfl⟩
      rw [parseEnv]
      split
      · rename_i word span converted proper rest at_
        have other := plain _ _ (Tokens.lexemes_word at_ rfl)
        rw [beginsAssignment_of_head rfl, TokenKind.assignment] at other
        rw [Option.not_isSome_iff_eq_none.mp (Bool.eq_false_iff.mp other)]
      · rfl
  | @cons run front assignment given first others ih =>
      obtain ⟨text, span, name, value, adjacent, parts, rfl, assigns, brings⟩ := first.head
      obtain ⟨token, rest, at_, -, same⟩ := Tokens.word_of_lexemes stands
      obtain ⟨⟨kind, place⟩, converted, proper⟩ := token
      obtain ⟨⟨⟨⟩, ⟨⟩⟩, rfl⟩ := List.cons.inj same
      have advanced : before.advance.rest = rest := by rw [Tokens.advance, at_]
      obtain ⟨⟨stop, found⟩, middle, collected, left, suffix⟩ :=
        collectAdjacentParts_complete span.stop (valueLiteral value)
          (fun other member => complete other (by
            rw [at_]
            rw [advanced] at member
            exact List.mem_cons_of_mem _ member)) (advanced.symm ▸ brings)
      rw [advanced] at left suffix
      have reads : Reads before _ middle := Reads.word at_ rfl left suffix
      obtain ⟨all, after, parsed, readsAll, counted⟩ :=
        ih (env ++ [⟨name, ⟨valueParts found, span.start + (name.map size).sum + 1, stop⟩, span⟩])
          (reads.complete complete) (reads.left stands)
      refine ⟨all, after, ?_, reads.trans readsAll, ?_⟩
      · rw [parseEnv]
        split
        · rename_i word' span' converted' proper' rest' at'
          rw [at_] at at'
          cases at'
          rw [assigns]
          dsimp only
          split
          · rename_i failed
            rw [collected] at failed
            cases failed
          · rename_i stop' found' middle' collected'
            rw [collected] at collected'
            cases collected'
            exact parsed
        · rename_i none
          exact (none text span converted proper rest at_).elim
      · rw [counted, List.length_append, List.length_cons, List.length_cons, List.length_nil]
        omega

theorem parseTail_complete (tail : CommandTail) {before : Tokens} {front later : List Lexeme}
    {args : List (Word CommandList)} {redirections : List (Redirection CommandList)}
    (complete : ∀ token ∈ before.rest, token.Complete Body)
    (stands : before.lexemes = front ++ later) (follows : Follows TokenKind.isSimpleEnd later)
    (of : TailOf Body front args redirections) :
    ∃ found after, parseTail tail before = .ok (found, after) ∧ Reads before front after := by
  induction of generalizing before tail with
  | nil =>
      rw [List.nil_append] at stands
      subst stands
      refine ⟨tail, before, ?_, Reads.nothing before⟩
      rw [parseTail]
      split
      · rfl
      · rename_i token rest at_
        have other := TokenKind.isSimpleEnd_notRedirection (follows.ends_next at_)
        rw [if_neg (by rw [other]; exact Bool.false_ne_true)]
        split
        · rename_i failed
          rw [parseWord_none follows.no_word] at failed
          cases failed
        · rename_i middle none
          rw [parseWord_none follows.no_word] at none
          cases none
          rfl
        · rename_i word middle some
          rw [parseWord_none follows.no_word] at some
          cases some
  | @arg run front word args redirections first others ih =>
      obtain ⟨found, middle, read, reads⟩ := parseWord_complete complete stands first
      obtain ⟨all, after, parsed, readsAll⟩ :=
        ih { tail with
            args := tail.args ++ [found]
            endSpan := found.span } (reads.complete complete) (reads.left stands)
      refine ⟨all, after, ?_, reads.trans readsAll⟩
      obtain ⟨token, rest, at_, isPart, -⟩ := Tokens.word_of_lexemes stands
      have plain : ¬token.kind.isRedirection = true := fun redirects =>
        Bool.false_ne_true ((TokenKind.isRedirection_notWordPart redirects).symm.trans isPart)
      rw [parseTail]
      split
      · rename_i ended
        rw [ended] at at_
        cases at_
      · rename_i token' rest' at'
        rw [at_] at at'
        cases at'
        rw [if_neg plain]
        split
        · rename_i failed
          rw [read] at failed
          cases failed
        · rename_i middle' none
          rw [read] at none
          cases none
        · rename_i word' middle' some
          rw [read] at some
          cases some
          exact parsed
  | @redirection operator front args redirection redirections first others ih =>
      rw [List.append_assoc] at stands
      obtain ⟨token, rest, found, middle, at_, redirects, read, reads⟩ :=
        parseRedirection_complete complete stands first
      obtain ⟨all, after, parsed, readsAll⟩ :=
        ih { tail with
            redirections := tail.redirections ++ [found]
            endSpan := found.targetSpan.getD tail.endSpan }
          (reads.complete complete) (reads.left stands)
      refine ⟨all, after, ?_, reads.trans readsAll⟩
      rw [parseTail]
      split
      · rename_i ended
        rw [ended] at at_
        cases at_
      · rename_i token' rest' at'
        rw [at_] at at'
        cases at'
        rw [if_pos redirects]
        split
        · rename_i failed
          rw [read] at failed
          cases failed
        · rename_i found' middle' read'
          rw [read] at read'
          cases read'
          exact parsed

theorem parseSimpleCommand_complete {before : Tokens} {front later : List Lexeme}
    {command : SimpleCommand CommandList}
    (complete : ∀ token ∈ before.rest, token.Complete Body)
    (stands : before.lexemes = front ++ later) (follows : Follows TokenKind.isSimpleEnd later)
    (of : SimpleOf Body front command) :
    ∃ found after, parseSimpleCommand before = .ok (found, after) ∧ Reads before front after := by
  cases of with
  | @command front tail run env name args redirections span assigns plain named followed =>
      rw [List.append_assoc, List.cons_append] at stands
      obtain ⟨given, middle, assigned, reads, -⟩ := parseEnv_complete [] complete stands
        (by rintro _ _ ⟨⟩; exact plain) assigns
      have within := reads.complete complete
      have standsName := reads.left stands
      obtain ⟨word, behind, read, readsName⟩ := parseWord_complete within standsName named
      obtain ⟨found, after, parsed, readsTail⟩ := parseTail_complete ⟨[], [], word.span⟩
        (readsName.complete within) (readsName.left standsName) follows followed
      let start := (before.rest.head?.map (·.span)).getD (.empty 0)
      refine ⟨⟨given, word, found.args, found.redirections, start.merge found.endSpan⟩, after,
        ?_, reads.trans (readsName.trans readsTail)⟩
      exact bind_eq_ok.mpr ⟨(given, middle), assigned, bind_eq_ok.mpr ⟨(some word, behind), read,
        bind_eq_ok.mpr ⟨(found, after), parsed, rfl⟩⟩⟩
  | @assignments _ env nameSpan span assigns nonempty =>
      obtain ⟨given, middle, assigned, reads, counted⟩ := parseEnv_complete [] complete stands
        (by
          rintro run rest rfl
          obtain ⟨token, is, -⟩ := follows _ _ rfl
          cases is) assigns
      have some : given ≠ [] := by
        intro none
        rw [none, List.length_nil, Nat.zero_add] at counted
        exact nonempty (List.eq_nil_of_length_eq_zero counted.symm)
      have ended : Follows TokenKind.isSimpleEnd middle.lexemes := (reads.left stands).symm ▸ follows
      let start := (before.rest.head?.map (·.span)).getD (.empty 0)
      refine ⟨⟨given, ⟨[], .empty start.start⟩, [], [], start⟩, middle, ?_, reads⟩
      refine bind_eq_ok.mpr ⟨(given, middle), assigned, bind_eq_ok.mpr ⟨(none, middle),
        parseWord_none ended.no_word, ?_⟩⟩
      dsimp only
      rw [if_pos some]
      rfl

/-! ## Jobs -/

/-- A word stands where the next token is of a word. -/
theorem Tokens.peekKind_of_word {tokens : Tokens} {run : List (Token Char)} {later : List Lexeme}
    {kind : TokenKind Char} (stands : tokens.lexemes = .word run :: later)
    (peeked : tokens.peekKind = some kind) : kind.isWordPart = true := by
  obtain ⟨token, rest, at_, isPart, -⟩ := Tokens.word_of_lexemes stands
  rw [Tokens.peekKind, at_] at peeked
  cases peeked
  exact isPart

/-- The next token ends what stands before. -/
theorem Follows.ends_peeked {ends : TokenKind Char → Bool} {tokens : Tokens}
    {kind : TokenKind Char} (follows : Follows ends tokens.lexemes)
    (peeked : tokens.peekKind = some kind) : ends kind = true := by
  obtain ⟨token, rest, at_, rfl⟩ := Tokens.of_peekKind peeked
  exact follows.ends_next at_

/-- A simple command begins with a word. -/
theorem SimpleOf.head {front : List Lexeme} {command : SimpleCommand CommandList}
    (of : SimpleOf Body front command) : ∃ run rest, front = .word run :: rest := by
  have envHead {front : List Lexeme} {env : List (EnvAssignment CommandList)}
      (assigns : EnvOf Body front env) (nonempty : front ≠ []) :
      ∃ run rest, front = .word run :: rest := by
    cases assigns with
    | nil => exact (nonempty rfl).elim
    | cons first others => exact ⟨_, _, rfl⟩
  cases of with
  | @command front later run env name args redirections span assigns plain named followed =>
      by_cases none : front = []
      · rw [none]
        exact ⟨run, later, rfl⟩
      · obtain ⟨first, rest, rfl⟩ := envHead assigns none
        exact ⟨first, _, rfl⟩
  | assignments assigns nonempty =>
      cases assigns with
      | nil => exact (nonempty rfl).elim
      | cons first others => exact ⟨_, _, rfl⟩

theorem parsePipes_complete (commands : List (SimpleCommand CommandList)) {fuel : Nat}
    {before : Tokens} {front later : List Lexeme} {given : List (SimpleCommand CommandList)}
    {span : Span} (complete : ∀ token ∈ before.rest, token.Complete Body)
    (stands : before.lexemes = .mark ⟨.pipe, span⟩ :: (front ++ later))
    (follows : Follows TokenKind.isCommandEnd later) (enough : before.rest.length < fuel)
    (of : PipesOf Body front given) :
    ∃ found after, parsePipes commands fuel before = .ok (found, after) ∧
      Reads before (.mark ⟨.pipe, span⟩ :: front) after := by
  induction of generalizing commands before span fuel with
  | @last front command first =>
      have mark := Reads.of_lexemes stands
      have shorter := mark.length_lt
      have ends : Follows TokenKind.isSimpleEnd later :=
        follows.mono fun kind ended => Bool.or_eq_true_iff.mpr (Or.inr ended)
      obtain ⟨found, after, parsed, reads⟩ :=
        parseSimpleCommand_complete (mark.complete complete) (mark.left stands) ends first
      have behind : Follows TokenKind.isCommandEnd after.lexemes :=
        (reads.left (mark.left stands)).symm ▸ follows
      obtain ⟨fuel, rfl⟩ := Nat.exists_eq_add_of_le' (show 2 ≤ fuel by omega)
      refine ⟨commands ++ [found], after, ?_, mark.trans reads⟩
      rw [parsePipes, if_pos (Tokens.peekKind_of_lexemes stands)]
      refine bind_eq_ok.mpr ⟨(found, after), parsed, ?_⟩
      dsimp only
      rw [parsePipes, if_neg]
      intro more
      exact Bool.false_ne_true (behind.ends_peeked more)
  | @pipe front others command given next first rest ih =>
      rw [List.append_assoc, List.cons_append] at stands
      have mark := Reads.of_lexemes stands
      have shorter := mark.length_lt
      have within := mark.complete complete
      obtain ⟨found, middle, parsed, reads⟩ :=
        parseSimpleCommand_complete within (mark.left stands) (Follows.mark rfl) first
      have shortened := reads.length_le
      obtain ⟨fuel, rfl⟩ := Nat.exists_eq_add_of_le' (show 1 ≤ fuel by omega)
      obtain ⟨all, after, followed, readsAll⟩ := @ih (commands ++ [found]) fuel middle next
        (reads.complete within) (reads.left (mark.left stands)) (by omega)
      refine ⟨all, after, ?_, mark.trans (reads.trans readsAll)⟩
      rw [parsePipes, if_pos (Tokens.peekKind_of_lexemes stands)]
      exact bind_eq_ok.mpr ⟨(found, middle), parsed, followed⟩

/-! ## What suffices for each production -/

/-- Where a list may end: at the end of the input, or an inner one at the end of its group. -/
def ListEnds (inner : Bool) (later : List Lexeme) : Prop :=
  later = [] ∨ inner = true ∧ ∃ token rest, later = .mark token :: rest ∧
    (token.kind = .rParen ∨ token.kind = .rBrace)

/-- Lexemes that `parseJob` reads. -/
def CommandComplete (Body : List Char → CommandList → Prop) (front : List Lexeme) : Prop :=
  ∀ (before : Tokens) (later : List Lexeme) (fuel : Nat),
    (∀ token ∈ before.rest, token.Complete Body) → before.lexemes = front ++ later →
      Follows TokenKind.isCommandEnd later → 8 * before.rest.length + 2 ≤ fuel →
        ∃ found after, parseJob fuel before = .ok (found, after) ∧ Reads before front after

/-- Lexemes that `parseCommandItem` reads. -/
def ItemComplete (Body : List Char → CommandList → Prop) (front : List Lexeme)
    (background : Bool) : Prop :=
  ∀ (before : Tokens) (later : List Lexeme) (fuel : Nat),
    (∀ token ∈ before.rest, token.Complete Body) → before.lexemes = front ++ later →
      (background = false → Follows TokenKind.isItemEnd later) →
        8 * before.rest.length + 3 ≤ fuel →
          ∃ found after, parseCommandItem fuel before = .ok (found, after) ∧
            Reads before front after ∧ found.background = background

/-- Lexemes that `parseChains` reads, with the separators before them. -/
def ListComplete (Body : List Char → CommandList → Prop) (front : List Lexeme) : Prop :=
  ∀ (inner : Bool) (commands : List (AndOrList CommandList)) (before : Tokens)
    (later : List Lexeme) (fuel : Nat),
    (∀ token ∈ before.rest, token.Complete Body) → before.lexemes = front ++ later →
      ListEnds inner later → 8 * before.rest.length + 5 ≤ fuel →
        ∃ found after, parseChains inner commands fuel before.skipSeparators = .ok (found, after) ∧
          Reads before front after

/-! ## Commands and items -/

theorem SimpleOf.complete {front : List Lexeme} {command : SimpleCommand CommandList}
    (of : SimpleOf Body front command) : CommandComplete Body front := by
  intro before later fuel complete stands follows enough
  have ends : Follows TokenKind.isSimpleEnd later :=
    follows.mono fun kind ended => Bool.or_eq_true_iff.mpr (Or.inr ended)
  obtain ⟨found, after, parsed, reads⟩ := parseSimpleCommand_complete complete stands ends of
  obtain ⟨run, rest, rfl⟩ := of.head
  have behind : Follows TokenKind.isCommandEnd after.lexemes := (reads.left stands).symm ▸ follows
  obtain ⟨fuel, rfl⟩ := Nat.exists_eq_add_of_le' (show 1 ≤ fuel by omega)
  refine ⟨.simple found, after, ?_, reads⟩
  rw [parseJob]
  split
  · rename_i peeked
    exact absurd (Tokens.peekKind_of_word stands peeked) Bool.false_ne_true
  · rename_i peeked
    exact absurd (Tokens.peekKind_of_word stands peeked) Bool.false_ne_true
  · refine bind_eq_ok.mpr ⟨(found, after), parsed, ?_⟩
    dsimp only
    rw [if_neg]
    · rfl
    · intro piped
      exact Bool.false_ne_true (behind.ends_peeked piped)

theorem PipesOf.complete {front : List Lexeme} {commands : List (SimpleCommand CommandList)}
    (of : PipesOf Body front commands) (several : 2 ≤ commands.length) :
    CommandComplete Body front := by
  intro before later fuel complete stands follows enough
  cases of with
  | last first =>
      rw [List.length_singleton] at several
      omega
  | @pipe front others command commands span first rest =>
      rw [List.append_assoc, List.cons_append] at stands
      obtain ⟨found, middle, parsed, reads⟩ :=
        parseSimpleCommand_complete complete stands (Follows.mark rfl) first
      obtain ⟨all, after, followed, readsAll⟩ := parsePipes_complete [found]
        (reads.complete complete) (reads.left stands) follows (Nat.lt_succ_self _) rest
      obtain ⟨run, others', rfl⟩ := first.head
      obtain ⟨fuel, rfl⟩ := Nat.exists_eq_add_of_le' (show 1 ≤ fuel by omega)
      let endSpan := (all.getLast?.map (·.span)).getD found.span
      refine ⟨.job ⟨all, found.span.merge endSpan⟩, after, ?_, reads.trans readsAll⟩
      rw [parseJob]
      split
      · rename_i peeked
        exact absurd (Tokens.peekKind_of_word stands peeked) Bool.false_ne_true
      · rename_i peeked
        exact absurd (Tokens.peekKind_of_word stands peeked) Bool.false_ne_true
      · refine bind_eq_ok.mpr ⟨(found, middle), parsed, ?_⟩
        dsimp only
        rw [if_pos (Tokens.peekKind_of_lexemes (reads.left stands))]
        exact bind_eq_ok.mpr ⟨(all, after), followed, rfl⟩

/-- A group is parsed where its body is. -/
theorem ListComplete.compound {inner closed : List Lexeme}
    {redirections : List (Redirection CommandList)} {left right : Span}
    (delimiter : CompoundDelimiter) (body : ListComplete Body inner)
    (redirected : RedirectionsOf Body closed redirections) :
    CommandComplete Body (.mark ⟨delimiter.openingToken, left⟩ :: inner ++
      .mark ⟨delimiter.closingToken, right⟩ :: closed) := by
  intro before later fuel complete stands follows enough
  rw [List.append_assoc, List.cons_append, List.cons_append] at stands
  have opens := Reads.of_lexemes stands
  have shorter := opens.length_lt
  have within := opens.complete complete
  obtain ⟨fuel, rfl⟩ := Nat.exists_eq_add_of_le' (show 3 ≤ fuel by omega)
  have ends : ListEnds true (.mark ⟨delimiter.closingToken, right⟩ :: (closed ++ later)) := by
    refine Or.inr ⟨rfl, _, _, rfl, ?_⟩
    cases delimiter with
    | paren => exact Or.inl rfl
    | brace => exact Or.inr rfl
  obtain ⟨commands, middle, parsed, reads⟩ :=
    body true [] before.advance _ fuel within (opens.left stands) ends (by omega)
  have standsClosing := reads.left (opens.left stands)
  have closing := Reads.of_lexemes standsClosing
  obtain ⟨token, rest, at_, same, -⟩ := Tokens.mark_of_lexemes standsClosing
  have behind : Follows TokenKind.isSimpleEnd later :=
    follows.mono fun kind ended => Bool.or_eq_true_iff.mpr (Or.inr ended)
  obtain ⟨⟨all, stop⟩, after, followed, readsAll⟩ := parseRedirections_complete [] token.span.stop
    (closing.complete (reads.complete within)) (closing.left standsClosing) behind redirected
  let list : CommandList := ⟨commands, before.advance.currentSpanStart,
    max middle.currentSpanEnd before.advance.currentSpanStart⟩
  have read : parseCommandListImpl true (fuel + 1) before.advance = .ok (list, middle) := by
    rw [parseCommandListImpl]
    exact bind_eq_ok.mpr ⟨(commands, middle), parsed, rfl⟩
  refine ⟨delimiter.build list all ⟨before.currentSpanStart, stop⟩, after, ?_,
    (opens.trans reads).trans (closing.trans readsAll)⟩
  have compound : parseCompoundCommand delimiter (fuel + 2) before =
      .ok (delimiter.build list all ⟨before.currentSpanStart, stop⟩, after) := by
    rw [parseCompoundCommand]
    refine bind_eq_ok.mpr ⟨(list, middle), read, ?_⟩
    dsimp only
    split
    · rename_i token' rest' at'
      rw [at_] at at'
      cases at'
      rw [if_pos (congrArg Token.kind same)]
      exact bind_eq_ok.mpr ⟨((all, stop), after), followed, rfl⟩
    · rename_i ended
      rw [at_] at ended
      cases ended
  rw [parseJob, Tokens.peekKind_of_lexemes stands]
  cases delimiter with
  | paren => exact compound
  | brace => exact compound

theorem ItemComplete.foreground {front : List Lexeme} (command : CommandComplete Body front) :
    ItemComplete Body front false := by
  intro before later fuel complete stands follows enough
  obtain ⟨fuel, rfl⟩ := Nat.exists_eq_add_of_le' (show 1 ≤ fuel by omega)
  have ends : Follows TokenKind.isCommandEnd later :=
    (follows rfl).mono fun kind ended => Bool.or_eq_true_iff.mpr (Or.inr ended)
  obtain ⟨found, after, parsed, reads⟩ := command before later fuel complete stands ends (by omega)
  have behind : Follows TokenKind.isItemEnd after.lexemes :=
    (reads.left stands).symm ▸ follows rfl
  refine ⟨⟨found, false, found.span.merge found.span⟩, after, ?_, reads, rfl⟩
  rw [parseCommandItem]
  refine bind_eq_ok.mpr ⟨(found, after), parsed, ?_⟩
  dsimp only
  split
  · rename_i span parts proper rest at_
    exact absurd (behind.ends_next at_) Bool.false_ne_true
  · rfl

theorem ItemComplete.inBackground {front : List Lexeme} {mark : Span}
    (command : CommandComplete Body front) :
    ItemComplete Body (front ++ [.mark ⟨.ampersand, mark⟩]) true := by
  intro before later fuel complete stands follows enough
  rw [List.append_assoc, List.singleton_append] at stands
  obtain ⟨fuel, rfl⟩ := Nat.exists_eq_add_of_le' (show 1 ≤ fuel by omega)
  obtain ⟨found, middle, parsed, reads⟩ :=
    command before _ fuel complete stands (Follows.mark rfl) (by omega)
  have closing := Reads.of_lexemes (reads.left stands)
  obtain ⟨⟨⟨kind, span⟩, parts, proper⟩, rest, at_, same, -⟩ :=
    Tokens.mark_of_lexemes (reads.left stands)
  cases same
  refine ⟨⟨found, true, found.span.merge mark⟩, middle.advance, ?_, reads.trans closing, rfl⟩
  rw [parseCommandItem]
  refine bind_eq_ok.mpr ⟨(found, middle), parsed, ?_⟩
  dsimp only
  rw [at_]
  rfl

/-! ## Chains -/

/-- Operators with items that are read, from left to right.  Only the last of them may be in
the background. -/
inductive Links (Body : List Char → CommandList → Prop) : List Lexeme → List Bool → Prop where
  | nil : Links Body [] []
  | cons {front later : List Lexeme} {background : Bool} {backgrounds : List Bool} {mark : Span}
      (op : LogicalOp) : ItemComplete Body front background →
      (background = true → backgrounds = []) → Links Body later backgrounds →
        Links Body (.mark ⟨op.token, mark⟩ :: (front ++ later)) (background :: backgrounds)

def lastBackground (first : Bool) (backgrounds : List Bool) : Bool :=
  backgrounds.getLast?.getD first

theorem lastBackground_cons (first background : Bool) (backgrounds : List Bool) :
    lastBackground first (background :: backgrounds) = lastBackground background backgrounds := by
  rw [lastBackground, lastBackground, List.getLast?_cons, Option.getD_some]

theorem AndOrList.lastWasBackground_eq (andOr : AndOrList CommandList) :
    andOr.lastWasBackground =
      lastBackground andOr.first.background (andOr.rest.map (·.2.background)) := by
  rw [AndOrList.lastWasBackground, lastBackground, List.getLast?_map]
  cases andOr.rest.getLast? <;> rfl

def Lexeme.Begins : Lexeme → Prop
  | word _ => True
  | mark token => token.kind = .lParen ∨ token.kind = .lBrace

/-- A command begins with a word or with the start of a group. -/
theorem CommandOf.head {front : List Lexeme} {command : Command CommandList}
    (of : CommandOf Body front command) : ∃ lexeme rest, front = lexeme :: rest ∧ lexeme.Begins := by
  cases of with
  | simple of =>
      obtain ⟨run, rest, rfl⟩ := of.head
      exact ⟨_, rest, rfl, trivial⟩
  | job of several =>
      cases of with
      | last first =>
          obtain ⟨run, rest, rfl⟩ := first.head
          exact ⟨_, rest, rfl, trivial⟩
      | pipe first rest =>
          obtain ⟨run, rest, rfl⟩ := first.head
          exact ⟨_, _, rfl, trivial⟩
  | subshell body redirections => exact ⟨_, _, rfl, Or.inl rfl⟩
  | braceGroup body redirections => exact ⟨_, _, rfl, Or.inr rfl⟩

theorem ItemOf.head {front : List Lexeme} {item : CommandItem CommandList}
    (of : ItemOf Body front item) : ∃ lexeme rest, front = lexeme :: rest ∧ lexeme.Begins := by
  cases of with
  | foreground of => exact of.head
  | background of =>
      obtain ⟨lexeme, rest, rfl, begins⟩ := of.head
      exact ⟨lexeme, _, rfl, begins⟩

/-- A chain, as the parser reads it: its first item, and then the operators. -/
def ChainComplete (Body : List Char → CommandList → Prop) (front : List Lexeme)
    (andOr : AndOrList CommandList) : Prop :=
  ∃ lexeme start links, front = lexeme :: start ++ links ∧ lexeme.Begins ∧
    ItemComplete Body (lexeme :: start) andOr.first.background ∧
    (andOr.first.background = true → andOr.rest = []) ∧
    Links Body links (andOr.rest.map (·.2.background))

/-- An operator can be added behind an item in the foreground. -/
theorem Links.snoc {front later : List Lexeme} {first background : Bool} {backgrounds : List Bool}
    {mark : Span} (links : Links Body front backgrounds)
    (foreground : lastBackground first backgrounds = false) (op : LogicalOp)
    (item : ItemComplete Body later background) :
    Links Body (front ++ .mark ⟨op.token, mark⟩ :: later) (backgrounds ++ [background]) := by
  induction links generalizing first with
  | nil =>
      have one := @Links.cons Body later [] background [] mark op item (fun _ => rfl) Links.nil
      rw [List.append_nil] at one
      exact one
  | @cons start rest found others mark' op' complete last links ih =>
      rw [lastBackground_cons] at foreground
      have inFront : found = true → others ++ [background] = [] := by
        intro inBackground
        have none := last inBackground
        rw [none, inBackground] at foreground
        cases foreground
      rw [List.cons_append, List.append_assoc]
      exact @Links.cons Body start _ found _ mark' op' complete inFront (ih foreground)

theorem ChainComplete.item {front : List Lexeme} {item : CommandItem CommandList} {span : Span}
    (of : ItemOf Body front item) (complete : ItemComplete Body front item.background) :
    ChainComplete Body front ⟨item, [], span⟩ := by
  obtain ⟨lexeme, rest, rfl, begins⟩ := of.head
  exact ⟨lexeme, rest, [], (List.append_nil _).symm, begins, complete, fun _ => rfl, Links.nil⟩

theorem ChainComplete.chain {front later : List Lexeme} {andOr : AndOrList CommandList}
    {item : CommandItem CommandList} {mark span : Span} (op : LogicalOp)
    (chain : ChainComplete Body front andOr) (foreground : andOr.lastWasBackground = false)
    (complete : ItemComplete Body later item.background) :
    ChainComplete Body (front ++ .mark ⟨op.token, mark⟩ :: later)
      ⟨andOr.first, andOr.rest ++ [(op, item)], span⟩ := by
  obtain ⟨lexeme, start, links, rfl, begins, first, alone, linked⟩ := chain
  rw [AndOrList.lastWasBackground_eq] at foreground
  refine ⟨lexeme, start, links ++ .mark ⟨op.token, mark⟩ :: later, List.append_assoc _ _ _, begins,
    first, ?_, ?_⟩
  · intro inBackground
    rw [alone inBackground, inBackground] at foreground
    cases foreground
  · rw [List.map_append]
    exact linked.snoc foreground op complete

/-- An item in the foreground ends before an operator, and where its chain ends. -/
theorem Links.itemEnds {front later : List Lexeme} {backgrounds : List Bool}
    (links : Links Body front backgrounds)
    (follows : lastBackground false backgrounds = false → Follows TokenKind.isChainEnd later) :
    Follows TokenKind.isItemEnd (front ++ later) := by
  cases links with
  | nil => exact (follows rfl).mono fun kind ended => Bool.or_eq_true_iff.mpr (Or.inr ended)
  | cons op => exact Follows.mark (by cases op <;> rfl)

theorem parseOperators_complete (rest : List (LogicalOp × CommandItem CommandList))
    {before : Tokens} {front later : List Lexeme} {fuel : Nat} {first : Bool}
    {backgrounds : List Bool} (complete : ∀ token ∈ before.rest, token.Complete Body)
    (stands : before.lexemes = front ++ later) (foreground : backgrounds = [] → first = false)
    (follows : lastBackground first backgrounds = false → Follows TokenKind.isChainEnd later)
    (enough : 8 * before.rest.length + 1 ≤ fuel) (links : Links Body front backgrounds) :
    ∃ found after, parseOperators rest fuel before = .ok (rest ++ found, after) ∧
      Reads before front after ∧ found.map (·.2.background) = backgrounds := by
  induction links generalizing before rest fuel first with
  | nil =>
      have ends : Follows TokenKind.isChainEnd later := follows (foreground rfl)
      rw [List.nil_append] at stands
      subst stands
      obtain ⟨fuel, rfl⟩ := Nat.exists_eq_add_of_le' (show 1 ≤ fuel by omega)
      refine ⟨[], before, ?_, Reads.nothing before, rfl⟩
      rw [parseOperators, List.append_nil]
      split
      · rename_i peeked
        exact absurd (ends.ends_peeked peeked) Bool.false_ne_true
      · rename_i peeked
        exact absurd (ends.ends_peeked peeked) Bool.false_ne_true
      · rfl
  | @cons start others background backgrounds mark op itemComplete last links ih =>
      rw [List.cons_append, List.append_assoc] at stands
      have operator := Reads.of_lexemes stands
      have shorter := operator.length_lt
      have within := operator.complete complete
      obtain ⟨fuel, rfl⟩ := Nat.exists_eq_add_of_le' (show 2 ≤ fuel by omega)
      have itemEnds : background = false → Follows TokenKind.isItemEnd (others ++ later) := by
        intro inFront
        rw [lastBackground_cons, inFront] at follows
        exact links.itemEnds follows
      obtain ⟨item, middle, parsed, reads, same⟩ := itemComplete before.advance _ fuel within
        (operator.left stands) itemEnds (by omega)
      have shortened := reads.length_le
      have operand : ∃ found after,
          parseOperand rest op (fuel + 1) before.advance = .ok (rest ++ found, after) ∧
            Reads middle others after ∧
            found.map (·.2.background) = background :: backgrounds := by
        rw [parseOperand]
        by_cases inBackground : background = true
        · have none := last inBackground
          subst none
          cases links with
          | nil =>
              refine ⟨[(op, item)], middle, bind_eq_ok.mpr ⟨(item, middle), parsed, ?_⟩,
                Reads.nothing middle, congrArg (· :: []) same⟩
              dsimp only
              rw [if_pos (same.trans inBackground)]
              rfl
        · obtain ⟨found, after, followed, readsRest, counted⟩ := @ih (rest ++ [(op, item)]) middle
            fuel background (reads.complete within) (reads.left (operator.left stands))
            (fun _ => Bool.eq_false_iff.mpr inBackground)
            (fun inFront => follows (by rw [lastBackground_cons]; exact inFront)) (by omega)
          refine ⟨(op, item) :: found, after, bind_eq_ok.mpr ⟨(item, middle), parsed, ?_⟩,
            readsRest, ?_⟩
          · dsimp only
            rw [if_neg (by rw [same]; exact inBackground), followed, List.append_assoc]
            rfl
          · rw [List.map_cons, counted, same]
      obtain ⟨found, after, parsedAll, readsRest, counted⟩ := operand
      refine ⟨found, after, ?_, operator.trans (reads.trans readsRest), counted⟩
      rw [parseOperators, Tokens.peekKind_of_lexemes stands]
      cases op with
      | and => exact parsedAll
      | or => exact parsedAll

theorem parseAndOrList_complete {before : Tokens} {front later : List Lexeme} {fuel : Nat}
    {andOr : AndOrList CommandList} (complete : ∀ token ∈ before.rest, token.Complete Body)
    (stands : before.lexemes = front ++ later)
    (follows : andOr.lastWasBackground = false → Follows TokenKind.isChainEnd later)
    (enough : 8 * before.rest.length + 4 ≤ fuel) (chain : ChainComplete Body front andOr) :
    ∃ found after, parseAndOrList fuel before = .ok (found, after) ∧ Reads before front after ∧
      found.lastWasBackground = andOr.lastWasBackground := by
  obtain ⟨lexeme, start, links, rfl, -, first, alone, linked⟩ := chain
  rw [List.append_assoc] at stands
  rw [AndOrList.lastWasBackground_eq] at follows
  obtain ⟨fuel, rfl⟩ := Nat.exists_eq_add_of_le' (show 1 ≤ fuel by omega)
  have itemEnds : andOr.first.background = false →
      Follows TokenKind.isItemEnd (links ++ later) := by
    intro inFront
    rw [inFront] at follows
    exact linked.itemEnds follows
  obtain ⟨item, middle, parsed, reads, same⟩ :=
    first before _ fuel complete stands itemEnds (by omega)
  have shortened := reads.length_le
  have positive : 8 * middle.rest.length + 1 ≤ fuel := by omega
  by_cases inBackground : andOr.first.background = true
  · have none := alone inBackground
    rw [none, List.map_nil] at linked
    cases linked with
    | nil =>
        refine ⟨⟨item, [], item.span⟩, middle, ?_, reads.trans (Reads.nothing middle), ?_⟩
        · rw [parseAndOrList]
          refine bind_eq_ok.mpr ⟨(item, middle), parsed, ?_⟩
          dsimp only
          rw [if_pos (same.trans inBackground)]
          rfl
        · rw [AndOrList.lastWasBackground_eq, AndOrList.lastWasBackground_eq, none, same]
  · obtain ⟨found, after, followed, readsRest, counted⟩ := parseOperators_complete []
      (reads.complete complete) (reads.left stands)
      (fun _ => Bool.eq_false_iff.mpr inBackground) follows positive linked
    let endSpan := (found.getLast?.map (·.2.span)).getD item.span
    refine ⟨⟨item, found, item.span.merge endSpan⟩, after, ?_, reads.trans readsRest, ?_⟩
    · rw [parseAndOrList]
      refine bind_eq_ok.mpr ⟨(item, middle), parsed, ?_⟩
      dsimp only
      rw [if_neg (by rw [same]; exact inBackground)]
      exact bind_eq_ok.mpr ⟨(found, after), followed, rfl⟩
    · rw [AndOrList.lastWasBackground_eq, AndOrList.lastWasBackground_eq, counted, same]

/-! ## Lists -/

theorem skipSeparators_of_none {tokens : Tokens} (none : tokens.atSeparator = false) :
    tokens.skipSeparators = tokens := by
  rw [Tokens.skipSeparators]
  split
  · rfl
  · rw [if_neg (by rw [none]; exact Bool.false_ne_true)]

theorem skipSeparators_of_mark {tokens : Tokens} {token : Token Char} {later : List Lexeme}
    (stands : tokens.lexemes = .mark token :: later) (separates : token.kind.isSeparator = true) :
    tokens.atSeparator = true ∧ tokens.skipSeparators = tokens.advance.skipSeparators := by
  have peeked := Tokens.peekKind_of_lexemes stands
  have atSeparator : tokens.atSeparator = true := by
    rw [Tokens.atSeparator, peeked]
    obtain ⟨kind, span⟩ := token
    cases kind <;> first | rfl | cases separates
  refine ⟨atSeparator, ?_⟩
  obtain ⟨token', rest, at_, -⟩ := Tokens.mark_of_lexemes stands
  rw [Tokens.skipSeparators]
  split
  · rename_i ended
    rw [ended] at at_
    cases at_
  · rw [if_pos atSeparator]

/-- A chain begins neither with a separator nor with the end of a group. -/
theorem Lexeme.Begins.goesOn {tokens : Tokens} {lexeme : Lexeme} {later : List Lexeme}
    (begins : lexeme.Begins) (stands : tokens.lexemes = lexeme :: later) :
    tokens.atEnd = false ∧ tokens.atGroupEnd = false ∧ tokens.atSeparator = false := by
  have kinds : ∃ token rest, tokens.rest = token :: rest ∧
      (token.kind.isWordPart = true ∨ token.kind = .lParen ∨ token.kind = .lBrace) := by
    cases lexeme with
    | word run =>
        obtain ⟨token, rest, at_, isPart, -⟩ := Tokens.word_of_lexemes stands
        exact ⟨token, rest, at_, Or.inl isPart⟩
    | mark mark =>
        obtain ⟨token, rest, at_, rfl, -⟩ := Tokens.mark_of_lexemes stands
        exact ⟨token, rest, at_, Or.inr begins⟩
  obtain ⟨⟨⟨kind, span⟩, parts, proper⟩, rest, at_, is⟩ := kinds
  rw [Tokens.atEnd, Tokens.atGroupEnd, Tokens.atSeparator, Tokens.peekKind, at_]
  cases kind <;> first | exact ⟨rfl, rfl, rfl⟩ | rcases is with is | is | is <;> cases is

/-- Where a list may end, it does. -/
theorem ListEnds.stopped {inner : Bool} {tokens : Tokens} (ends : ListEnds inner tokens.lexemes) :
    tokens.Stopped inner ∧ tokens.atSeparator = false := by
  rcases ends with ended | ⟨rfl, ⟨kind, span⟩, rest, stands, closes⟩
  · rw [Tokens.Stopped, Tokens.atEnd, Tokens.atSeparator, Tokens.peekKind,
      Tokens.ended_of_lexemes ended]
    exact ⟨rfl, rfl⟩
  · rw [Tokens.Stopped, Tokens.atGroupEnd, Tokens.atSeparator, Tokens.peekKind_of_lexemes stands]
    rcases closes with closes | closes
    · cases closes
      exact ⟨by rw [Bool.true_and]; exact Bool.or_true _, rfl⟩
    · cases closes
      exact ⟨by rw [Bool.true_and]; exact Bool.or_true _, rfl⟩

theorem parseChains_ends {inner : Bool} (commands : List (AndOrList CommandList)) {tokens : Tokens}
    {fuel : Nat} (ends : ListEnds inner tokens.lexemes) (enough : 1 ≤ fuel) :
    parseChains inner commands fuel tokens.skipSeparators = .ok (commands, tokens) := by
  obtain ⟨stopped, none⟩ := ends.stopped
  obtain ⟨fuel, rfl⟩ := Nat.exists_eq_add_of_le' enough
  rw [skipSeparators_of_none none, parseChains]
  exact if_pos stopped

/-- What may stand behind a chain of a list. -/
def ChainCloses (inner : Bool) (andOr : AndOrList CommandList) (later : List Lexeme) : Prop :=
  andOr.lastWasBackground = true ∨
    (∃ token rest, later = .mark token :: rest ∧ token.kind.isSeparator = true) ∨
    ListEnds inner later

theorem ChainCloses.follows {inner : Bool} {andOr : AndOrList CommandList} {later : List Lexeme}
    (closes : ChainCloses inner andOr later) (foreground : andOr.lastWasBackground = false) :
    Follows TokenKind.isChainEnd later := by
  rcases closes with background | ⟨⟨kind, span⟩, rest, rfl, separates⟩ | rfl |
    ⟨-, ⟨kind, span⟩, rest, rfl, ends⟩
  · exact absurd (foreground.symm.trans background) Bool.false_ne_true
  · refine Follows.mark ?_
    cases kind <;> first | rfl | cases separates
  · exact Follows.nil
  · refine Follows.mark ?_
    rcases ends with ends | ends
    · rw [ends]
      rfl
    · rw [ends]
      rfl

/-- A chain of a list is read, and the parser goes on behind it. -/
theorem ChainComplete.step {inner : Bool} (commands : List (AndOrList CommandList))
    {before : Tokens} {front later : List Lexeme} {fuel : Nat} {andOr : AndOrList CommandList}
    (chain : ChainComplete Body front andOr)
    (complete : ∀ token ∈ before.rest, token.Complete Body)
    (stands : before.lexemes = front ++ later) (closes : ChainCloses inner andOr later)
    (enough : 8 * before.rest.length + 5 ≤ fuel + 1) :
    ∃ found middle, Reads before front middle ∧ middle.rest.length < before.rest.length ∧
      parseChains inner commands (fuel + 1) before.skipSeparators =
        parseChains inner (commands ++ [found]) fuel middle.skipSeparators := by
  obtain ⟨found, middle, parsed, reads, same⟩ := parseAndOrList_complete complete stands
    closes.follows (show 8 * before.rest.length + 4 ≤ fuel by omega) chain
  obtain ⟨lexeme, start, links, rfl, begins, -⟩ := chain
  obtain ⟨notEnd, notGroupEnd, notSeparator⟩ := begins.goesOn stands
  refine ⟨found, middle, reads, reads.length_lt, ?_⟩
  have left := reads.left stands
  rw [skipSeparators_of_none notSeparator, parseChains,
    if_neg (by rw [notEnd, notGroupEnd, Bool.and_false]; exact Bool.false_ne_true), parsed]
  have allowed : (!found.lastWasBackground && !middle.atEnd && !middle.atSeparator &&
      !(inner && middle.atGroupEnd)) = false := by
    rcases closes with background | ⟨token, rest, stood, separates⟩ | ends
    · rw [same, background]
      rfl
    · rw [(skipSeparators_of_mark (left.trans stood) separates).1, Bool.not_true, Bool.and_false,
        Bool.false_and]
    · have stopped := (left ▸ ends : ListEnds inner middle.lexemes).stopped.1
      rw [Tokens.Stopped] at stopped
      revert stopped
      cases found.lastWasBackground <;> cases middle.atEnd <;> cases middle.atSeparator <;>
        cases (inner && middle.atGroupEnd) <;> decide
  change (if (!found.lastWasBackground && !middle.atEnd && !middle.atSeparator &&
    !(inner && middle.atGroupEnd)) = true then _ else _) = _
  rw [if_neg (by rw [allowed]; exact Bool.false_ne_true)]

theorem ListComplete.nil : ListComplete Body [] := by
  intro inner commands before later fuel complete stands ends enough
  rw [List.nil_append] at stands
  subst stands
  exact ⟨commands, before, parseChains_ends commands ends (by omega), Reads.nothing before⟩

theorem ListComplete.separator {front : List Lexeme} {token : Token Char}
    (separates : token.kind.isSeparator = true) (list : ListComplete Body front) :
    ListComplete Body (.mark token :: front) := by
  intro inner commands before later fuel complete stands ends enough
  have mark := Reads.of_lexemes stands
  have shorter := mark.length_lt
  obtain ⟨found, after, parsed, reads⟩ := list inner commands before.advance later fuel
    (mark.complete complete) (mark.left stands) ends (by omega)
  refine ⟨found, after, ?_, mark.trans reads⟩
  rw [(skipSeparators_of_mark stands separates).2]
  exact parsed

theorem ChainComplete.last {front : List Lexeme} {andOr : AndOrList CommandList}
    (chain : ChainComplete Body front andOr) : ListComplete Body front := by
  intro inner commands before later fuel complete stands ends enough
  obtain ⟨fuel, rfl⟩ := Nat.exists_eq_add_of_le' (show 1 ≤ fuel by omega)
  obtain ⟨found, middle, reads, shorter, step⟩ :=
    chain.step commands complete stands (Or.inr (Or.inr ends)) enough
  refine ⟨commands ++ [found], middle, step.trans ?_, reads⟩
  exact parseChains_ends _ ((reads.left stands).symm ▸ ends) (by omega)

/-- A list goes on behind a chain that closes. -/
theorem ChainComplete.append {front rest : List Lexeme} {andOr : AndOrList CommandList}
    (chain : ChainComplete Body front andOr) (list : ListComplete Body rest)
    (closes : ∀ inner later, ChainCloses inner andOr (rest ++ later)) :
    ListComplete Body (front ++ rest) := by
  intro inner commands before later fuel complete stands ends enough
  rw [List.append_assoc] at stands
  obtain ⟨fuel, rfl⟩ := Nat.exists_eq_add_of_le' (show 1 ≤ fuel by omega)
  obtain ⟨found, middle, reads, shorter, step⟩ :=
    chain.step commands complete stands (closes inner later) enough
  obtain ⟨all, after, parsed, readsRest⟩ := list inner (commands ++ [found]) middle later fuel
    (reads.complete complete) (reads.left stands) ends (by omega)
  exact ⟨all, after, step.trans parsed, reads.trans readsRest⟩

/-! ## The parser -/

/-- The lexemes of a list are read. -/
theorem ListOf.complete {front : List Lexeme} {list : CommandList} (of : ListOf Body front list) :
    ListComplete Body front :=
  @ListOf.rec Body
    (fun front _ _ => CommandComplete Body front)
    (fun front item _ => ItemComplete Body front item.background)
    (fun front andOr _ => ChainComplete Body front andOr)
    (fun front _ _ => ListComplete Body front)
    (fun of => of.complete)
    (fun of several => of.complete several)
    (fun _ redirected body => body.compound .paren redirected)
    (fun _ redirected body => body.compound .brace redirected)
    (fun _ command => ItemComplete.foreground command)
    (fun _ command => ItemComplete.inBackground command)
    (fun of complete => ChainComplete.item of complete)
    (fun op _ foreground _ chain complete => chain.chain op foreground complete)
    ListComplete.nil
    (fun separates _ list => list.separator separates)
    (fun _ chain => chain.last)
    (fun _ separates _ chain list => chain.append (list.separator separates)
      fun _ _ => Or.inr (Or.inl ⟨_, _, rfl, separates⟩))
    (fun _ background _ chain list => chain.append list fun _ _ => Or.inl background)
    front list of

/-- The parser builds a tree where the tokens are those of one. -/
theorem parseCommandList_complete (inputLen : Nat) {tokens : List ParsedToken} {list : CommandList}
    (complete : ∀ token ∈ tokens, token.Complete Body)
    (of : ListOf Body (lexemes (tokens.map ParsedToken.token)) list) :
    ∃ found, parseCommandList inputLen tokens = .ok found := by
  let before : Tokens := ⟨inputLen, none, tokens⟩
  have enough : 8 * before.rest.length + 5 ≤ 8 * tokens.length + 7 := Nat.le_add_right _ 2
  obtain ⟨commands, after, parsed, -⟩ := of.complete false [] before [] _ complete
    (List.append_nil _).symm (Or.inl rfl) enough
  refine ⟨⟨commands, before.currentSpanStart, max after.currentSpanEnd before.currentSpanStart⟩, ?_⟩
  refine bind_eq_ok.mpr ⟨(_, after), mapError_eq_ok.mpr ?_, rfl⟩
  rw [parseCommandListImpl]
  exact bind_eq_ok.mpr ⟨(commands, after), parsed, rfl⟩

end Completeness

end OddJobs.Shell
