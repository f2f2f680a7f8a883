import OddJobs.Shell.Sentences

/-!
# Parsing with recovery

After an error the parser goes on behind the next separator.  Without one it builds the same
list as the strict parser, and its first error is the one that the strict parser reports.
-/

namespace OddJobs.Shell

open Library

/-! ## Where the parser stands afterwards -/

/-- Where an outcome leaves the parser: at least so many tokens further where it returned,
and nowhere further back where it failed. -/
inductive Advances {A : Type} (least : Nat) (before : Tokens) :
    Except Failure (Parsed A) → Prop where
  | ok {value : A} {after : Tokens} : after.rest <:+ before.rest →
      after.rest.length + least ≤ before.rest.length → Advances least before (.ok (value, after))
  | error {failure : Failure} : failure.stopped.rest <:+ before.rest →
      Advances least before (.error failure)

namespace Advances

variable {A B : Type} {least more : Nat} {before middle after : Tokens}
  {first : Except Failure (Parsed A)} {next : Parsed A → Except Failure (Parsed B)}

theorem stay (value : A) : Advances 0 before (.ok (value, before)) :=
  Advances.ok (List.suffix_refl _) (Nat.le_refl _)

theorem fail (expected : String) :
    Advances (A := A) least before (.error (before.unexpectedToken expected)) :=
  Advances.error (List.suffix_refl _)

theorem weaken (advances : Advances more before first) (le : least ≤ more) :
    Advances least before first := by
  cases advances with
  | ok suffix further => exact Advances.ok suffix (Nat.le_trans (Nat.add_le_add_left le _) further)
  | error suffix => exact Advances.error suffix

/-- What starts further on also advances from here. -/
theorem from_ (advances : Advances least middle first) (suffix : middle.rest <:+ before.rest)
    (further : middle.rest.length + more ≤ before.rest.length) :
    Advances (least + more) before first := by
  cases advances with
  | ok behind count => exact Advances.ok (behind.trans suffix) (by omega)
  | error behind => exact Advances.error (behind.trans suffix)

/-- What starts behind here advances from here. -/
theorem within (advances : Advances least middle first) (suffix : middle.rest <:+ before.rest) :
    Advances least before first := by
  have further : middle.rest.length + 0 ≤ before.rest.length := suffix.length_le
  exact advances.from_ suffix further

theorem bind (advances : Advances least before first)
    (continues : ∀ value after, first = .ok (value, after) → Advances 0 after (next (value, after))) :
    Advances least before (first >>= next) := by
  cases advances with
  | error suffix => exact Advances.error suffix
  | @ok value after suffix further =>
      rw [← Nat.zero_add least]
      exact (continues value after rfl).from_ suffix further

/-- A failure is one of whatever was to be built. -/
theorem failed {failure : Failure} (advances : Advances (A := A) least before (.error failure)) :
    Advances (A := B) least before (.error failure) := by
  cases advances with
  | error suffix => exact Advances.error suffix

theorem length_le {value : A} (advances : Advances least before (.ok (value, after))) :
    after.rest.length + least ≤ before.rest.length := by
  cases advances with
  | ok _ further => exact further

end Advances

theorem Tokens.advance_suffix (tokens : Tokens) : tokens.advance.rest <:+ tokens.rest := by
  rw [advance]
  split
  · exact List.suffix_refl _
  · rename_i token rest stands
    rw [stands]
    exact List.suffix_cons token rest

theorem Tokens.advance_length {tokens : Tokens} (more : tokens.rest ≠ []) :
    tokens.advance.rest.length + 1 = tokens.rest.length := by
  rw [advance]
  split
  · contradiction
  · rename_i token rest stands
    rw [stands, List.length_cons]

/-- What follows a token that is consumed. -/
theorem Advances.behind {A : Type} {least : Nat} {before : Tokens}
    {outcome : Except Failure (Parsed A)} (advances : Advances least before.advance outcome)
    (more : before.rest ≠ []) : Advances (least + 1) before outcome :=
  advances.from_ before.advance_suffix (Nat.le_of_eq (Tokens.advance_length more))

section Words

variable {before after : Tokens}

theorem Tokens.ne_nil_of_stands {token : ParsedToken} {rest : List ParsedToken}
    (stands : before.rest = token :: rest) : before.rest ≠ [] := by
  rw [stands]
  exact List.cons_ne_nil token rest

theorem collectAdjacentParts_advances (stop : Nat) (parts : List (WordPart Char CommandList))
    (before : Tokens) : Advances 0 before (collectAdjacentParts stop parts before) := by
  fun_induction collectAdjacentParts stop parts before with
  | case1 => exact Advances.stay _
  | case2 => exact Advances.error (List.suffix_refl _)
  | case3 => exact Advances.stay _
  | case4 parts before token rest stands part more converted ih =>
      exact (ih.behind (Tokens.ne_nil_of_stands stands)).weaken (Nat.zero_le 1)
  | case5 => exact Advances.stay _

theorem parseWord_advances (before : Tokens) : Advances 0 before (parseWord before) := by
  rw [parseWord]
  split
  · exact Advances.stay _
  · rename_i token rest stands
    split
    · exact Advances.error (List.suffix_refl _)
    · exact Advances.stay _
    · rename_i part more converted
      have collected := (collectAdjacentParts_advances token.span.stop (part :: more)
        before.advance).behind (Tokens.ne_nil_of_stands stands)
      refine (collected.bind fun value after _ => ?_).weaken (Nat.zero_le _)
      exact Advances.stay _

theorem parseEnv_advances (env : List (EnvAssignment CommandList)) (before : Tokens) :
    Advances 0 before (parseEnv env before) := by
  fun_induction parseEnv env before with
  | case1 => exact Advances.stay _
  | case2 env before word span parts partsNil rest stands name value assigned error collected =>
      have advances := collectAdjacentParts_advances span.stop (valueLiteral value) before.advance
      rw [collected] at advances
      exact ((advances.behind (Tokens.ne_nil_of_stands stands)).weaken (Nat.zero_le 1)).failed
  | case3 env before word span parts partsNil rest stands name value assigned stop found after
      collected start ih =>
      have advances := collectAdjacentParts_advances span.stop (valueLiteral value) before.advance
      rw [collected] at advances
      cases advances.behind (Tokens.ne_nil_of_stands stands) with
      | ok suffix further => exact (ih.from_ suffix further).weaken (Nat.zero_le _)
  | case4 => exact Advances.stay _

/-- An assignment that was added has been read. -/
theorem parseEnv_length {env env' : List (EnvAssignment CommandList)}
    (parsed : parseEnv env before = .ok (env', after)) :
    env' = env ∨ after.rest.length < before.rest.length := by
  rw [parseEnv.eq_def] at parsed
  split at parsed
  · rename_i word span parts partsNil rest stands
    split at parsed
    · cases parsed
      exact Or.inl rfl
    · rename_i name value assigned
      split at parsed
      · cases parsed
      · rename_i stop found middle collected
        have advances := collectAdjacentParts_advances span.stop (valueLiteral value)
          before.advance
        rw [collected] at advances
        have consumed := (advances.behind (Tokens.ne_nil_of_stands stands)).length_le
        have later : Advances 0 middle (.ok (env', after)) := parsed ▸ parseEnv_advances _ middle
        have further := later.length_le
        exact Or.inr (by omega)
  · cases parsed
    exact Or.inl rfl

theorem requireWord_advances (expected : String) (before : Tokens) :
    Advances 0 before (requireWord expected before) := by
  refine (parseWord_advances before).bind fun word after _ => ?_
  cases word with
  | none => exact Advances.fail expected
  | some word => exact Advances.stay word

theorem parseTarget_advances (expected : String)
    (build : Word CommandList → Redirection CommandList) (before : Tokens) :
    Advances 0 before (parseTarget expected build before) :=
  (requireWord_advances expected before).bind fun word _ _ => Advances.stay (build word)

theorem parseRedirection_advances (operator : TokenKind Char) (before : Tokens) :
    Advances 0 before (parseRedirection operator before) := by
  cases operator with
  | redirectOut fd =>
      rw [parseRedirection]
      exact parseTarget_advances _ _ before
  | redirectAppend fd =>
      rw [parseRedirection]
      exact parseTarget_advances _ _ before
  | redirectIn fd => exact parseTarget_advances _ _ before
  | hereString fd => exact parseTarget_advances _ _ before
  | redirectBoth append => exact parseTarget_advances _ _ before
  | hereDoc fd stripTabs delimiter body quoted => exact Advances.stay _
  | duplicateFd source target output => exact Advances.stay _
  | _ => exact Advances.error (List.suffix_refl _)

theorem parseRedirections_advances (redirections : List (Redirection CommandList)) (stop : Nat)
    (before : Tokens) : Advances 0 before (parseRedirections redirections stop before) := by
  fun_induction parseRedirections redirections stop before with
  | case1 => exact Advances.stay _
  | case2 redirections stop before token rest stands redirects error parsed =>
      have advances := parseRedirection_advances token.kind before.advance
      rw [parsed] at advances
      exact ((advances.behind (Tokens.ne_nil_of_stands stands)).weaken (Nat.zero_le 1)).failed
  | case3 redirections stop before token rest stands redirects redirection after parsed ih =>
      have advances := parseRedirection_advances token.kind before.advance
      rw [parsed] at advances
      cases advances.behind (Tokens.ne_nil_of_stands stands) with
      | ok suffix further => exact (ih.from_ suffix further).weaken (Nat.zero_le _)
  | case4 => exact Advances.stay _

theorem parseTail_advances (tail : CommandTail) (before : Tokens) :
    Advances 0 before (parseTail tail before) := by
  fun_induction parseTail tail before with
  | case1 => exact Advances.stay _
  | case2 tail before token rest stands redirects error parsed =>
      have advances := parseRedirection_advances token.kind before.advance
      rw [parsed] at advances
      exact ((advances.behind (Tokens.ne_nil_of_stands stands)).weaken (Nat.zero_le 1)).failed
  | case3 tail before token rest stands redirects redirection after parsed ih =>
      have advances := parseRedirection_advances token.kind before.advance
      rw [parsed] at advances
      cases advances.behind (Tokens.ne_nil_of_stands stands) with
      | ok suffix further => exact (ih.from_ suffix further).weaken (Nat.zero_le _)
  | case4 tail before token rest stands other error parsed =>
      have advances := parseWord_advances before
      rw [parsed] at advances
      exact advances.failed
  | case5 tail before token rest stands other after parsed =>
      have advances := parseWord_advances before
      rw [parsed] at advances
      cases advances with
      | ok suffix further => exact Advances.ok suffix further
  | case6 tail before token rest stands other word after parsed ih =>
      have advances := parseWord_advances before
      rw [parsed] at advances
      cases advances with
      | ok suffix further => exact (ih.from_ suffix further).weaken (Nat.zero_le _)

/-- A simple command that is parsed has a token. -/
theorem parseSimpleCommand_advances (before : Tokens) :
    Advances 1 before (parseSimpleCommand before) := by
  have assignments := parseEnv_advances [] before
  rw [parseSimpleCommand]
  rcases assigned : parseEnv [] before with failure | ⟨env, middle⟩
  · rw [assigned] at assignments
    cases assignments with
    | error suffix => exact Advances.error suffix
  · rw [assigned] at assignments
    have word := parseWord_advances middle
    cases assignments with
    | ok suffix further =>
        change Advances 1 before (parseWord middle >>= _)
        rcases named : parseWord middle with failure | ⟨name, later⟩
        · rw [named] at word
          cases word with
          | error behind => exact Advances.error (behind.trans suffix)
        · rw [named] at word
          cases word with
          | ok behind count =>
              cases name with
              | some name =>
                  have shorter := (parseWord_length named).2 rfl
                  have tail := (parseTail_advances ⟨[], [], name.span⟩ later).from_
                    (behind.trans suffix) (show later.rest.length + 1 ≤ _ by omega)
                  exact tail.bind fun found after _ => Advances.stay _
              | none =>
                  change Advances 1 before (if env ≠ [] then _ else _)
                  split
                  · rename_i some
                    have shorter := (parseEnv_length assigned).resolve_left some
                    exact Advances.ok (behind.trans suffix) (by omega)
                  · exact Advances.error (behind.trans suffix)

theorem skipSeparators_suffix (tokens : Tokens) : tokens.skipSeparators.rest <:+ tokens.rest := by
  fun_induction Tokens.skipSeparators tokens with
  | case1 => exact List.suffix_refl _
  | case2 tokens token rest stands separates ih => exact ih.trans tokens.advance_suffix
  | case3 => exact List.suffix_refl _

theorem parsePipes_advances (commands : List (SimpleCommand CommandList)) (fuel : Nat)
    (before : Tokens) : Advances 0 before (parsePipes commands fuel before) := by
  induction fuel generalizing commands before with
  | zero => exact Advances.fail _
  | succ fuel ih =>
      rw [parsePipes]
      split
      · rename_i piped
        have more : before.rest ≠ [] := by
          intro none
          rw [Tokens.peekKind, none] at piped
          cases piped
        have first := (parseSimpleCommand_advances before.advance).behind more
        exact (first.bind fun command after _ => ih _ after).weaken (Nat.zero_le _)
      · exact Advances.stay _

end Words

/-! ## The fuel -/

/-- The functions of the parser advance with the fuel. -/
structure AdvancesAt (fuel : Nat) : Prop where
  chains : ∀ inner commands before, Advances 0 before (parseChains inner commands fuel before)
  list : ∀ inner before, Advances 0 before (parseCommandListImpl inner fuel before)
  andOr : ∀ before, Advances 1 before (parseAndOrList fuel before)
  operators : ∀ rest before, Advances 0 before (parseOperators rest fuel before)
  operand : ∀ rest op before, Advances 0 before (parseOperand rest op fuel before)
  item : ∀ before, Advances 1 before (parseCommandItem fuel before)
  job : ∀ before, Advances 1 before (parseJob fuel before)
  compound : ∀ delimiter before, before.rest ≠ [] →
    Advances 1 before (parseCompoundCommand delimiter fuel before)

theorem Tokens.ne_nil_of_peekKind {before : Tokens} {kind : TokenKind Char}
    (peeked : before.peekKind = some kind) : before.rest ≠ [] := by
  intro none
  rw [Tokens.peekKind, none] at peeked
  cases peeked

section Steps

variable {fuel : Nat} (below : AdvancesAt fuel) (before : Tokens)
include below

theorem parseChains_advances (inner : Bool) (commands : List (AndOrList CommandList)) :
    Advances 0 before (parseChains inner commands (fuel + 1) before) := by
  rw [parseChains]
  split
  · exact Advances.stay _
  · refine ((below.andOr before).bind fun andOr after _ => ?_).weaken (Nat.zero_le _)
    dsimp only
    split
    · exact Advances.fail _
    · exact (below.chains inner _ _).within (skipSeparators_suffix after)

theorem parseCommandListImpl_advances (inner : Bool) :
    Advances 0 before (parseCommandListImpl inner (fuel + 1) before) := by
  rw [parseCommandListImpl]
  have chains := (below.chains inner [] before.skipSeparators).within (skipSeparators_suffix before)
  exact chains.bind fun commands after _ => Advances.stay _

theorem parseAndOrList_advances : Advances 1 before (parseAndOrList (fuel + 1) before) := by
  rw [parseAndOrList]
  refine (below.item before).bind fun first after _ => ?_
  dsimp only
  split
  · exact Advances.stay _
  · exact (below.operators [] after).bind fun rest later _ => Advances.stay _

theorem parseOperators_advances (rest : List (LogicalOp × CommandItem CommandList)) :
    Advances 0 before (parseOperators rest (fuel + 1) before) := by
  rw [parseOperators]
  split
  · rename_i peeked
    exact ((below.operand rest .and before.advance).behind
      (Tokens.ne_nil_of_peekKind peeked)).weaken (Nat.zero_le _)
  · rename_i peeked
    exact ((below.operand rest .or before.advance).behind
      (Tokens.ne_nil_of_peekKind peeked)).weaken (Nat.zero_le _)
  · exact Advances.stay _

theorem parseOperand_advances (rest : List (LogicalOp × CommandItem CommandList))
    (op : LogicalOp) : Advances 0 before (parseOperand rest op (fuel + 1) before) := by
  rw [parseOperand]
  refine ((below.item before).bind fun item after _ => ?_).weaken (Nat.zero_le _)
  dsimp only
  split
  · exact Advances.stay _
  · exact below.operators _ after

theorem parseCommandItem_advances : Advances 1 before (parseCommandItem (fuel + 1) before) := by
  rw [parseCommandItem]
  refine (below.job before).bind fun command after _ => ?_
  dsimp only
  split
  · exact Advances.ok after.advance_suffix after.advance_suffix.length_le
  · exact Advances.stay _

theorem parseJob_advances : Advances 1 before (parseJob (fuel + 1) before) := by
  rw [parseJob.eq_def]
  dsimp only
  split
  · rename_i peeked
    exact below.compound .paren before (Tokens.ne_nil_of_peekKind peeked)
  · rename_i peeked
    exact below.compound .brace before (Tokens.ne_nil_of_peekKind peeked)
  · refine (parseSimpleCommand_advances before).bind fun first after _ => ?_
    dsimp only
    split
    · exact (parsePipes_advances [first] _ after).bind fun commands later _ =>
        Advances.stay _
    · exact Advances.stay _

theorem parseCompoundCommand_advances (delimiter : CompoundDelimiter) (more : before.rest ≠ []) :
    Advances 1 before (parseCompoundCommand delimiter (fuel + 1) before) := by
  rw [parseCompoundCommand]
  refine ((below.list true before.advance).behind more).bind fun body after _ => ?_
  dsimp only
  split
  · rename_i token rest stands
    split
    · have redirections := (parseRedirections_advances [] token.span.stop after.advance).behind
        (Tokens.ne_nil_of_stands stands)
      refine (redirections.weaken (Nat.zero_le _)).bind fun found later _ => ?_
      exact Advances.stay _
    · exact Advances.fail _
  · exact Advances.fail _

end Steps

theorem advancesAt (fuel : Nat) : AdvancesAt fuel := by
  induction fuel with
  | zero =>
      constructor
      all_goals
        intros
        exact Advances.fail _
  | succ fuel below =>
      exact {
        chains := fun inner commands before => parseChains_advances below before inner commands
        list := fun inner before => parseCommandListImpl_advances below before inner
        andOr := parseAndOrList_advances below
        operators := fun rest before => parseOperators_advances below before rest
        operand := fun rest op before => parseOperand_advances below before rest op
        item := parseCommandItem_advances below
        job := parseJob_advances below
        compound := fun delimiter before => parseCompoundCommand_advances below before delimiter }

/-- With the fuel that they need, the functions of the parser give what they give with more. -/
structure EnoughAt (fuel : Nat) : Prop where
  chains : ∀ inner commands (before : Tokens), 8 * before.rest.length + 7 ≤ fuel →
    parseChains inner commands (fuel + 1) before = parseChains inner commands fuel before
  list : ∀ inner (before : Tokens), 8 * before.rest.length + 8 ≤ fuel →
    parseCommandListImpl inner (fuel + 1) before = parseCommandListImpl inner fuel before
  andOr : ∀ before : Tokens, 8 * before.rest.length + 6 ≤ fuel →
    parseAndOrList (fuel + 1) before = parseAndOrList fuel before
  operators : ∀ rest (before : Tokens), 8 * before.rest.length + 7 ≤ fuel →
    parseOperators rest (fuel + 1) before = parseOperators rest fuel before
  operand : ∀ rest op (before : Tokens), 8 * before.rest.length + 6 ≤ fuel →
    parseOperand rest op (fuel + 1) before = parseOperand rest op fuel before
  item : ∀ before : Tokens, 8 * before.rest.length + 5 ≤ fuel →
    parseCommandItem (fuel + 1) before = parseCommandItem fuel before
  job : ∀ before : Tokens, 8 * before.rest.length + 4 ≤ fuel →
    parseJob (fuel + 1) before = parseJob fuel before
  compound : ∀ delimiter (before : Tokens), before.rest ≠ [] →
    8 * before.rest.length + 3 ≤ fuel →
      parseCompoundCommand delimiter (fuel + 1) before = parseCompoundCommand delimiter fuel before

section Fuel

variable {fuel : Nat} (below : EnoughAt fuel) (before : Tokens)
include below

theorem parseChains_enough (inner : Bool) (commands : List (AndOrList CommandList))
    (enough : 8 * before.rest.length + 7 ≤ fuel + 1) :
    parseChains inner commands (fuel + 2) before = parseChains inner commands (fuel + 1) before := by
  rw [parseChains, parseChains]
  split
  · rfl
  · refine bind_congr_ok (below.andOr before (Nat.le_of_succ_le_succ enough)) ?_
    rintro ⟨andOr, after⟩ parsed
    have advanced := (advancesAt fuel).andOr before
    rw [parsed] at advanced
    have shorter := advanced.length_le
    have skipped := (skipSeparators_suffix after).length_le
    dsimp only
    split
    · rfl
    · exact below.chains inner _ _ (by omega)

theorem parseCommandListImpl_enough (inner : Bool)
    (enough : 8 * before.rest.length + 8 ≤ fuel + 1) :
    parseCommandListImpl inner (fuel + 2) before = parseCommandListImpl inner (fuel + 1) before := by
  rw [parseCommandListImpl, parseCommandListImpl]
  have skipped := (skipSeparators_suffix before).length_le
  exact bind_congr_ok (below.chains inner [] _ (by omega)) fun _ _ => rfl

theorem parseAndOrList_enough (enough : 8 * before.rest.length + 6 ≤ fuel + 1) :
    parseAndOrList (fuel + 2) before = parseAndOrList (fuel + 1) before := by
  rw [parseAndOrList, parseAndOrList]
  refine bind_congr_ok (below.item before (Nat.le_of_succ_le_succ enough)) ?_
  rintro ⟨first, after⟩ parsed
  have advanced := (advancesAt fuel).item before
  rw [parsed] at advanced
  have shorter := advanced.length_le
  dsimp only
  split
  · rfl
  · exact bind_congr_ok (below.operators [] after (by omega)) fun _ _ => rfl

theorem parseOperators_enough (rest : List (LogicalOp × CommandItem CommandList))
    (enough : 8 * before.rest.length + 7 ≤ fuel + 1) :
    parseOperators rest (fuel + 2) before = parseOperators rest (fuel + 1) before := by
  have shorter := before.advance_suffix.length_le
  rw [parseOperators, parseOperators]
  split
  · exact below.operand rest .and _ (by omega)
  · exact below.operand rest .or _ (by omega)
  · rfl

theorem parseOperand_enough (rest : List (LogicalOp × CommandItem CommandList)) (op : LogicalOp)
    (enough : 8 * before.rest.length + 6 ≤ fuel + 1) :
    parseOperand rest op (fuel + 2) before = parseOperand rest op (fuel + 1) before := by
  rw [parseOperand, parseOperand]
  refine bind_congr_ok (below.item before (Nat.le_of_succ_le_succ enough)) ?_
  rintro ⟨item, after⟩ parsed
  have advanced := (advancesAt fuel).item before
  rw [parsed] at advanced
  have shorter := advanced.length_le
  dsimp only
  split
  · rfl
  · exact below.operators _ after (by omega)

theorem parseCommandItem_enough (enough : 8 * before.rest.length + 5 ≤ fuel + 1) :
    parseCommandItem (fuel + 2) before = parseCommandItem (fuel + 1) before := by
  rw [parseCommandItem, parseCommandItem]
  exact bind_congr_ok (below.job before (Nat.le_of_succ_le_succ enough)) fun _ _ => rfl

theorem parseJob_enough (enough : 8 * before.rest.length + 4 ≤ fuel + 1) :
    parseJob (fuel + 2) before = parseJob (fuel + 1) before := by
  rw [parseJob.eq_def, parseJob.eq_def]
  dsimp only
  split
  · rename_i peeked
    exact below.compound .paren before (Tokens.ne_nil_of_peekKind peeked)
      (Nat.le_of_succ_le_succ enough)
  · rename_i peeked
    exact below.compound .brace before (Tokens.ne_nil_of_peekKind peeked)
      (Nat.le_of_succ_le_succ enough)
  · rfl

theorem parseCompoundCommand_enough (delimiter : CompoundDelimiter) (more : before.rest ≠ [])
    (enough : 8 * before.rest.length + 3 ≤ fuel + 1) :
    parseCompoundCommand delimiter (fuel + 2) before =
      parseCompoundCommand delimiter (fuel + 1) before := by
  have shorter := Tokens.advance_length more
  rw [parseCompoundCommand, parseCompoundCommand]
  exact bind_congr_ok (below.list true before.advance (by omega)) fun _ _ => rfl

end Fuel

theorem enoughAt (fuel : Nat) : EnoughAt fuel := by
  induction fuel with
  | zero =>
      constructor
      all_goals
        intros
        omega
  | succ fuel below =>
      exact {
        chains := fun inner commands before => parseChains_enough below before inner commands
        list := fun inner before => parseCommandListImpl_enough below before inner
        andOr := parseAndOrList_enough below
        operators := fun rest before => parseOperators_enough below before rest
        operand := fun rest op before => parseOperand_enough below before rest op
        item := parseCommandItem_enough below
        job := parseJob_enough below
        compound := fun delimiter before => parseCompoundCommand_enough below before delimiter }

/-- A chain is parsed in the same way with any fuel that is enough. -/
theorem parseAndOrList_fuel (before : Tokens) {fuel : Nat}
    (enough : 8 * before.rest.length + 6 ≤ fuel) :
    parseAndOrList fuel before = parseAndOrList (8 * before.rest.length + 6) before := by
  induction fuel, enough using Nat.le_induction with
  | base => rfl
  | succ fuel enough ih => exact ((enoughAt fuel).andOr before enough).trans ih

/-! ## Recovering -/

def TokenKind.isOperator (kind : TokenKind Char) : Bool :=
  kind == .pipe || kind == .and || kind == .or || kind == .ampersand

def Tokens.skipWhile (skipped : TokenKind Char → Bool) (tokens : Tokens) : Tokens :=
  match _stands : tokens.rest with
  | [] => tokens
  | token :: _ => if skipped token.kind then skipWhile skipped tokens.advance else tokens
termination_by tokens.rest.length
decreasing_by exact length_advance _stands

/-- Skip tokens until we find a separator: leading operators first, which may have caused the
error. -/
def Tokens.recoverToSeparator (tokens : Tokens) : Tokens :=
  (tokens.skipWhile TokenKind.isOperator).skipWhile (!TokenKind.isSeparator ·)

/-- What has been parsed and reported so far, and where the parser stands. -/
structure Recovery where
  commands : List (AndOrList CommandList)
  errors : List ParseError
  tokens : Tokens

/-- Parse a chain, or report an error and go to the next separator; then skip separators. -/
def Recovery.step (recovery : Recovery) : Recovery :=
  match parseAndOrList (8 * recovery.tokens.rest.length + 6) recovery.tokens with
  | .ok (andOr, tokens) =>
      let commands := recovery.commands ++ [andOr]
      if !andOr.lastWasBackground && !tokens.atEnd && !tokens.atSeparator then
        ⟨commands, recovery.errors ++ [(tokens.unexpectedToken "';' or newline").error],
          tokens.recoverToSeparator.skipSeparators⟩
      else ⟨commands, recovery.errors, tokens.skipSeparators⟩
  | .error failure =>
      ⟨recovery.commands, recovery.errors ++ [failure.error],
        failure.stopped.recoverToSeparator.skipSeparators⟩

section Progress

variable {tokens : Tokens}

theorem skipWhile_suffix (skipped : TokenKind Char → Bool) (tokens : Tokens) :
    (tokens.skipWhile skipped).rest <:+ tokens.rest := by
  fun_induction Tokens.skipWhile skipped tokens with
  | case1 => exact List.suffix_refl _
  | case2 tokens token rest stands skips ih => exact ih.trans tokens.advance_suffix
  | case3 => exact List.suffix_refl _

theorem recoverToSeparator_suffix (tokens : Tokens) :
    tokens.recoverToSeparator.rest <:+ tokens.rest :=
  (skipWhile_suffix _ _).trans (skipWhile_suffix _ tokens)

/-- Skipping a token that is to be skipped goes on. -/
theorem skipWhile_length {skipped : TokenKind Char → Bool} {token : ParsedToken}
    {rest : List ParsedToken} (stands : tokens.rest = token :: rest)
    (skips : skipped token.kind = true) :
    (tokens.skipWhile skipped).rest.length < tokens.rest.length := by
  have behind := (skipWhile_suffix skipped tokens.advance).length_le
  have advanced := Tokens.length_advance stands
  rw [Tokens.skipWhile.eq_def]
  split
  · rename_i none
    rw [none] at stands
    cases stands
  · rename_i other later found
    cases found.symm.trans stands
    rw [if_pos skips]
    exact Nat.lt_of_le_of_lt behind advanced

theorem Tokens.atSeparator_of_stands {token : ParsedToken} {rest : List ParsedToken}
    (stands : tokens.rest = token :: rest) : tokens.atSeparator = token.kind.isSeparator := by
  rw [atSeparator, peekKind, stands]
  change (some token.kind == some .semi || some token.kind == some .newline) = _
  cases token.kind <;> rfl

theorem skipSeparators_length (separates : tokens.atSeparator = true) :
    tokens.skipSeparators.rest.length < tokens.rest.length := by
  rcases stands : tokens.rest with _ | ⟨token, rest⟩
  · rw [Tokens.atSeparator, Tokens.peekKind, stands] at separates
    cases separates
  · have behind := (skipSeparators_suffix tokens.advance).length_le
    have advanced := Tokens.length_advance stands
    rw [← stands, Tokens.skipSeparators.eq_def]
    split
    · rename_i none
      rw [none] at stands
      cases stands
    · rw [if_pos separates]
      exact Nat.lt_of_le_of_lt behind advanced

/-- At a token that does not separate, recovering goes on. -/
theorem recoverToSeparator_length {token : ParsedToken} {rest : List ParsedToken}
    (stands : tokens.rest = token :: rest) (inside : token.kind.isSeparator = false) :
    tokens.recoverToSeparator.rest.length < tokens.rest.length := by
  have later := (skipWhile_suffix (!TokenKind.isSeparator ·)
    (tokens.skipWhile TokenKind.isOperator)).length_le
  by_cases operator : token.kind.isOperator = true
  · exact Nat.lt_of_le_of_lt later (skipWhile_length stands operator)
  · have stays : tokens.skipWhile TokenKind.isOperator = tokens := by
      rw [Tokens.skipWhile.eq_def]
      split
      · rfl
      · rename_i other later found
        cases found.symm.trans stands
        rw [if_neg operator]
    rw [Tokens.recoverToSeparator, stays]
    refine skipWhile_length stands ?_
    rw [inside]
    rfl

/-- Recovering and skipping separators goes on, whatever token the parser stands at. -/
theorem recovered_length (more : tokens.atEnd = false) :
    tokens.recoverToSeparator.skipSeparators.rest.length < tokens.rest.length := by
  have skipped := (skipSeparators_suffix tokens.recoverToSeparator).length_le
  rcases stands : tokens.rest with _ | ⟨token, rest⟩
  · rw [Tokens.atEnd, stands] at more
    cases more
  · rw [← stands]
    by_cases inside : token.kind.isSeparator = true
    · -- The separator stays if nothing is skipped in front of it.
      rcases Nat.lt_or_ge tokens.recoverToSeparator.rest.length tokens.rest.length with less | same
      · exact Nat.lt_of_le_of_lt skipped less
      · have stays := (recoverToSeparator_suffix tokens).eq_of_length_le same
        have separates := Tokens.atSeparator_of_stands (stays.trans stands)
        rw [inside] at separates
        have consumed := skipSeparators_length separates
        rw [stays] at consumed
        exact consumed
    · exact Nat.lt_of_le_of_lt skipped
        (recoverToSeparator_length stands (Bool.eq_false_iff.mpr inside))

/-- Every round of the loop consumes a token, wherever an error has stopped the parser. -/
theorem Recovery.step_length {recovery : Recovery} (more : recovery.tokens.atEnd = false) :
    recovery.step.tokens.rest.length < recovery.tokens.rest.length := by
  have advances := (advancesAt (8 * recovery.tokens.rest.length + 6)).andOr recovery.tokens
  rw [step]
  rcases parsed : parseAndOrList (8 * recovery.tokens.rest.length + 6) recovery.tokens
    with failure | ⟨andOr, after⟩
  · rw [parsed] at advances
    cases advances with
    | error suffix =>
        dsimp only
        rcases Nat.lt_or_ge failure.stopped.rest.length recovery.tokens.rest.length with less | same
        · have recovered := ((skipSeparators_suffix _).trans
            (recoverToSeparator_suffix failure.stopped)).length_le
          exact Nat.lt_of_le_of_lt recovered less
        · have stays := suffix.eq_of_length_le same
          have there : failure.stopped.atEnd = false := by
            rw [Tokens.atEnd, stays]
            exact more
          rw [← stays]
          exact recovered_length there
  · rw [parsed] at advances
    have shorter := advances.length_le
    have skipped := (skipSeparators_suffix after).length_le
    have recovered := ((skipSeparators_suffix _).trans (recoverToSeparator_suffix after)).length_le
    dsimp only
    split
    · change after.recoverToSeparator.skipSeparators.rest.length < _
      omega
    · change after.skipSeparators.rest.length < _
      omega

end Progress

/-- Parse chains to the end, and report every error on the way. -/
def Recovery.run (recovery : Recovery) : Recovery :=
  if _more : recovery.tokens.atEnd = true then recovery else run recovery.step
termination_by recovery.tokens.rest.length
decreasing_by exact step_length (Bool.eq_false_iff.mpr _more)

/-- The commands that were parsed, and all the errors. -/
structure ParseResult where
  commands : CommandList
  errors : List ParseError

def parseWithRecoveryInner (inputLen : Nat) (tokens : List ParsedToken) : ParseResult :=
  let start : Tokens := ⟨inputLen, none, tokens⟩
  let ended := Recovery.run ⟨[], [], start.skipSeparators⟩
  ⟨⟨ended.commands, start.currentSpanStart, max ended.tokens.currentSpanEnd start.currentSpanStart⟩,
    ended.errors⟩

/-- Parse with error recovery, returning all valid commands and collected errors. -/
def Parser.parseWithRecovery (input : List Char) : ParseResult :=
  match tokenize input with
  | .error error => ⟨⟨[], .empty 0⟩, [.lexer error]⟩
  | .ok tokens =>
      parseWithRecoveryInner (input.map size).sum (tokens.map (Token.parsed Parser.parse))

/-! ## Both parsers -/

theorem Recovery.run_errors (recovery : Recovery) : recovery.errors <+: recovery.run.errors := by
  fun_induction Recovery.run recovery with
  | case1 => exact List.prefix_refl _
  | case2 recovery more ih =>
      refine List.IsPrefix.trans ?_ ih
      rw [Recovery.step]
      split
      · dsimp only
        split
        · exact List.prefix_append _ _
        · exact List.prefix_refl _
      · exact List.prefix_append _ _

theorem Recovery.run_first {commands : List (AndOrList CommandList)} {error : ParseError}
    (tokens : Tokens) : (Recovery.run ⟨commands, [error], tokens⟩).errors.head? = some error := by
  obtain ⟨more, same⟩ := Recovery.run_errors ⟨commands, [error], tokens⟩
  rw [← same]
  rfl

/-- The strict loop and the recovering one go in step up to the first error. -/
theorem run_of_chains {fuel : Nat} (commands : List (AndOrList CommandList)) (tokens : Tokens)
    (enough : 8 * tokens.rest.length + 7 ≤ fuel) :
    (∀ found after, parseChains false commands fuel tokens = .ok (found, after) →
      Recovery.run ⟨commands, [], tokens⟩ = ⟨found, [], after⟩) ∧
    ∀ failure, parseChains false commands fuel tokens = .error failure →
      (Recovery.run ⟨commands, [], tokens⟩).errors.head? = some failure.error := by
  induction fuel generalizing commands tokens with
  | zero => omega
  | succ fuel ih =>
      rw [parseChains, Bool.false_and, Bool.or_false, Recovery.run]
      by_cases ended : tokens.atEnd = true
      · rw [if_pos ended, dif_pos ended]
        constructor
        · rintro found after ⟨⟩
          rfl
        · rintro failure ⟨⟩
      · rw [if_neg ended, dif_neg ended, Recovery.step,
          parseAndOrList_fuel tokens (Nat.le_of_succ_le_succ enough)]
        have advances := (advancesAt (8 * tokens.rest.length + 6)).andOr tokens
        rcases parsed : parseAndOrList (8 * tokens.rest.length + 6) tokens
          with failure | ⟨andOr, after⟩
        · constructor
          · rintro found last ⟨⟩
          · rintro other ⟨⟩
            exact Recovery.run_first _
        · rw [parsed] at advances
          have shorter := advances.length_le
          have skipped := (skipSeparators_suffix after).length_le
          dsimp only
          by_cases unexpected :
              (!andOr.lastWasBackground && !after.atEnd && !after.atSeparator) = true
          · have fails : (!andOr.lastWasBackground && !after.atEnd && !after.atSeparator &&
                !(false && after.atGroupEnd)) = true := by
              rw [Bool.false_and, Bool.not_false, Bool.and_true]
              exact unexpected
            rw [if_pos unexpected]
            constructor
            · intro found last returned
              cases (if_pos fails).symm.trans returned
            · intro failure returned
              cases (if_pos fails).symm.trans returned
              exact Recovery.run_first _
          · have passes : ¬(!andOr.lastWasBackground && !after.atEnd && !after.atSeparator &&
                !(false && after.atGroupEnd)) = true := by
              rw [Bool.false_and, Bool.not_false, Bool.and_true]
              exact unexpected
            rw [if_neg unexpected]
            have later := ih (commands ++ [andOr]) after.skipSeparators (by omega)
            constructor
            · intro found last returned
              exact later.1 found last ((if_neg passes).symm.trans returned)
            · intro failure returned
              exact later.2 failure ((if_neg passes).symm.trans returned)

/-- The strict parser of tokens is the one with recovery up to the first error. -/
theorem parseCommandList_recovers (inputLen : Nat) (tokens : List ParsedToken) :
    (∀ list, parseCommandList inputLen tokens = .ok list →
      parseWithRecoveryInner inputLen tokens = ⟨list, []⟩) ∧
    ∀ error, parseCommandList inputLen tokens = .error error →
      (parseWithRecoveryInner inputLen tokens).errors.head? = some error := by
  let start : Tokens := ⟨inputLen, none, tokens⟩
  have enough : 8 * start.skipSeparators.rest.length + 7 ≤ 8 * tokens.length + 7 := by
    have skipped := (skipSeparators_suffix start).length_le
    have all : start.rest.length = tokens.length := rfl
    omega
  have together := run_of_chains [] start.skipSeparators enough
  rw [parseCommandList, parseCommandListImpl]
  rcases parsed : parseChains false [] (8 * tokens.length + 7) start.skipSeparators
    with failure | ⟨commands, after⟩
  · constructor
    · rintro list ⟨⟩
    · rintro error ⟨⟩
      exact together.2 failure parsed
  · constructor
    · rintro list ⟨⟩
      rw [parseWithRecoveryInner, together.1 commands after parsed]
    · rintro error ⟨⟩

/-- Strict parsing succeeds exactly where recovery reports no error, with the same list, and
fails with its first error; and each round of the recovery loop consumes a token. -/
theorem Parser.parse_recovers (input : List Char) :
    (∀ list, Parser.parse input = .ok list ↔
      (Parser.parseWithRecovery input).errors = [] ∧
        (Parser.parseWithRecovery input).commands = list) ∧
    (∀ error, Parser.parse input = .error error →
      (Parser.parseWithRecovery input).errors.head? = some error) ∧
    ∀ recovery : Recovery, recovery.tokens.atEnd = false →
      recovery.step.tokens.rest.length < recovery.tokens.rest.length := by
  have both : (∀ list, Parser.parse input = .ok list →
      Parser.parseWithRecovery input = ⟨list, []⟩) ∧
      ∀ error, Parser.parse input = .error error →
        (Parser.parseWithRecovery input).errors.head? = some error := by
    rw [parse_eq, Parser.parseWithRecovery]
    rcases tokenize input with error | tokens
    · constructor
      · rintro list ⟨⟩
      · rintro error ⟨⟩
        rfl
    · exact parseCommandList_recovers _ _
  refine ⟨fun list => ⟨fun parsed => ?_, ?_⟩, both.2, fun _ => Recovery.step_length⟩
  · rw [both.1 list parsed]
    exact ⟨rfl, rfl⟩
  · rintro ⟨none, same⟩
    rcases parsed : Parser.parse input with error | found
    · have first := both.2 error parsed
      rw [none] at first
      cases first
    · rw [both.1 found parsed] at same
      exact congrArg Except.ok same

end OddJobs.Shell
