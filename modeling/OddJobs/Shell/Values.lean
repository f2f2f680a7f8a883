import OddJobs.Shell.Readings
import OddJobs.Shell.Redirect

/-!
# Values of a reference

A reference is read by the lexer, by the lexer of double-quoted strings, and by the expander of
texts.  Where they find the same name, modifier or commands, the reference has the same value.
-/

namespace OddJobs.Shell

open Library

/-! ## Values -/

def wordOf (input : List Char) : Option (Word CommandList) :=
  match tokenize input with
  | .error _ => none
  | .ok tokens =>
      (parseWord ⟨Text.size input, none, tokens.map (Token.parsed Parser.parse)⟩).toOption.bind (·.1)

section Values

variable {ε : Type} (host : Host ε) (context : Context)

def returned {A : Type} (program : Program Context ε A) : Option A := (program context).1.toOption

def wordValue (input : List Char) : Option (List Char) :=
  (wordOf input).bind fun word => returned context (expandWordIn host word)

def quotedValue (text : List Char) : Option (List Char) :=
  wordValue host context ('\"' :: (text ++ ['\"']))

def bodyValue (text : List Char) : Option (List Char) :=
  returned context (expandHeredocBody host text)

def referenceValue : TokenKind Char → Option (List Char)
  | .var name modifier => returned context (expandVariableIn host ⟨0, 0⟩ name modifier)
  | .commandSubstitution content _ =>
      (Parser.parse content).toOption.bind fun body =>
        (host.executeSubstitution context body).toOption.map Text.trimNewlines
  | _ => none

end Values

section Words

variable {ε : Type} {host : Host ε} {context : Context}

theorem returned_bind {A B : Type} (program : Program Context ε A)
    (next : A → Program Context ε B) :
    returned context (program >>= next) =
      match program context with
      | (.ok value, after) => returned after (next value)
      | (.error _, _) => none := by
  rw [returned, Program.run_bind]
  rcases program context with ⟨_ | _, _⟩ <;> rfl

theorem returned_map {A B : Type} (program : Program Context ε A) (use : A → B) :
    returned context (program >>= fun value => pure (use value)) =
      (returned context program).map use := by
  rw [returned_bind, returned]
  rcases program context with ⟨_ | _, _⟩ <;> rfl

def wordOfParts (span : Span) :
    Except ParseError (List (WordPart Char CommandList)) → Option (Word CommandList)
  | .ok (part :: more) => some ⟨part :: more, span.start, span.stop⟩
  | _ => none

theorem parseWord_single (inputLen : Nat) (token : ParsedToken) :
    (parseWord ⟨inputLen, none, [token]⟩).toOption.bind (·.1) =
      wordOfParts token.span token.parts := by
  obtain ⟨token, parts, law⟩ := token
  cases parts with
  | error error => rfl
  | ok parts =>
      cases parts with
      | nil => rfl
      | cons part more =>
          rw [parseWord]
          dsimp only [Tokens.advance]
          rw [collectAdjacentParts]
          rfl

theorem wordOf_token {input : List Char} {token : Token Char}
    (read : tokenize input = .ok [token]) :
    wordOf input = wordOfParts token.span (tokenToParts Parser.parse token) := by
  rw [wordOf, read]
  exact parseWord_single (Text.size input) (token.parsed Parser.parse)

theorem applyModifier_unparsed {name modifier : List Char} {value : Option (List Char)}
    {span : Span} (unparsed : parseModifier modifier = none) :
    applyModifier host name modifier value span = Program.throw host.notCharBoundary := by
  rw [applyModifier]
  split
  · rfl
  · rename_i parsed
    rw [unparsed] at parsed
    cases parsed

theorem applyModifier_parsed {name modifier default : List Char} {value : Option (List Char)}
    {span : Span} {checkEmpty : Bool} {op : Char}
    (parsed : parseModifier modifier = some (checkEmpty, op, default)) :
    applyModifier host name modifier value span =
      match modify checkEmpty op value with
      | .value text => pure text
      | .default assign => do
          let expanded ← expandText host 0 default
          let _ ← Program.modify fun context =>
            if assign then context.assign name expanded else context
          return expanded
      | .required => Program.throw (host.undefinedVariable name span) := by
  rw [applyModifier]
  split
  · rename_i unparsed
    rw [unparsed] at parsed
    cases parsed
  · rename_i same
    rw [parsed] at same
    cases same
    rfl

/-- Only errors tell where a modifier stands. -/
theorem applyModifier_span (name modifier : List Char) (value : Option (List Char))
    (span other : Span) :
    returned context (applyModifier host name modifier value span) =
      returned context (applyModifier host name modifier value other) := by
  cases parsed : parseModifier modifier with
  | none => rw [applyModifier_unparsed parsed, applyModifier_unparsed parsed]
  | some operator =>
      obtain ⟨checkEmpty, op, default⟩ := operator
      rw [applyModifier_parsed parsed, applyModifier_parsed parsed]
      cases modify checkEmpty op value <;> rfl

theorem expandVariableIn_span (name : List Char) (modifier : Option (List Char))
    (span other : Span) :
    returned context (expandVariableIn host span name modifier) =
      returned context (expandVariableIn host other name modifier) := by
  unfold expandVariableIn
  rw [returned_bind, returned_bind]
  dsimp only [Program.read]
  cases modifier with
  | some modifier => exact applyModifier_span name modifier _ span other
  | none =>
      cases (resolveSpecialVariable host.surroundings context name).or (context.vars name) <;> rfl

def partValue (host : Host ε) (context : Context) :
    WordPart Char CommandList → Option (List Char)
  | .var name modifier => returned context (expandVariableIn host ⟨0, 0⟩ name modifier)
  | .commandSubstitution body _ =>
      (host.executeSubstitution context body).toOption.map Text.trimNewlines
  | .literal _ _ => none

/-- The value of a part does not depend on where it stands. -/
theorem expandPartIn_value {part : WordPart Char CommandList}
    (refers : ∀ value quoted, part ≠ .literal value quoted) (span : Span) (first : Bool)
    (result : GlobEligibility) :
    returned context (expandPartIn host span first result part) =
      (partValue host context part).map result.pushIneligible := by
  cases part with
  | literal value quoted => exact absurd rfl (refers value quoted)
  | var name modifier =>
      rw [expandPartIn, returned_map, partValue, expandVariableIn_span name modifier span ⟨0, 0⟩]
  | commandSubstitution body backtick =>
      rw [expandPartIn, partValue]
      · dsimp only [returned, Program.keeping, expandPart, expandSubstitution]
        dsimp only [Host.surroundings]
        cases host.executeSubstitution context body <;> rfl
      · rintro _ _ ⟨⟩

theorem expandPartIn_empty (span : Span) (first : Bool) (result : GlobEligibility) :
    expandPartIn host span first result (.literal [] .double) =
      pure (result.pushIneligible []) := rfl

theorem expandWordIn_single {part : WordPart Char CommandList}
    (refers : ∀ value quoted, part ≠ .literal value quoted) (span : Span) :
    returned context (expandWordIn host ⟨[part], span⟩) = partValue host context part := by
  unfold expandWordIn
  rw [returned_map]
  dsimp only [expandPartsIn]
  rw [Program.bind_pure, expandPartIn_value refers, Option.map_map]
  exact Option.map_id_fun' ▸ rfl

/-- A reference in double quotes has its value. -/
theorem expandWordIn_quoted {part : WordPart Char CommandList}
    (refers : ∀ value quoted, part ≠ .literal value quoted) (span : Span) :
    returned context
        (expandWordIn host ⟨[.literal [] .double, part, .literal [] .double], span⟩) =
      partValue host context part := by
  unfold expandWordIn
  rw [returned_map]
  simp only [expandPartsIn, expandPartIn_empty, Program.pure_bind, returned_map,
    expandPartIn_value refers, Option.map_map]
  have same : (fun result : GlobEligibility => result.text) ∘ (·.pushIneligible []) ∘
      (GlobEligibility.new.pushIneligible []).pushIneligible = id := by
    funext text
    exact List.append_nil text
  rw [same, Option.map_id]
  rfl

theorem wordValue_token {input text : List Char} {token : Token Char}
    (reference : Reference text token.kind) (read : tokenize input = .ok [token]) :
    wordValue host context input = referenceValue host context token.kind := by
  obtain ⟨kind, span⟩ := token
  rw [wordValue, wordOf_token read]
  rcases reference.refers with ⟨name, modifier, rfl⟩ | ⟨content, backtick, rfl⟩
  · exact expandWordIn_single (by rintro _ _ ⟨⟩) span
  · dsimp only [tokenToParts, referenceValue]
    cases parsed : Parser.parse content with
    | error error =>
        rw [parseCommandSubstitution.eq_def, parsed]
        rfl
    | ok body =>
        rw [parseCommandSubstitution.eq_def, parsed]
        exact expandWordIn_single (by rintro _ _ ⟨⟩) span

/-- A double-quoted token that holds a reference has the value of the reference. -/
theorem wordValue_doubleQuoted {input text : List Char} {kind : TokenKind Char} {span : Span}
    (reference : Reference text kind)
    (read : tokenize input =
      .ok [⟨.doubleQuoted [.literal [] .double, kind.part, .literal [] .double], span⟩]) :
    wordValue host context input = referenceValue host context kind := by
  rw [wordValue, wordOf_token read]
  rcases reference.refers with ⟨name, modifier, rfl⟩ | ⟨content, backtick, rfl⟩
  · exact expandWordIn_quoted (by rintro _ _ ⟨⟩) span
  · dsimp only [tokenToParts, referenceValue, TokenKind.part]
    rw [if_neg (List.cons_ne_nil _ _)]
    simp only [List.mapM_cons, List.mapM_nil, resolvePart]
    cases parsed : Parser.parse content with
    | error error =>
        rw [parseCommandSubstitution.eq_def, parsed]
        rfl
    | ok body =>
        rw [parseCommandSubstitution.eq_def, parsed]
        exact expandWordIn_quoted (by rintro _ _ ⟨⟩) span

end Words

/-! ## References in a text -/

def isSpecialName (name : List Char) : Bool :=
  match name with
  | [c] => isSpecialVariable c
  | _ => false

def TextPiece.Finds : TextPiece → TokenKind Char → Prop
  | .simpleVar name, .var found modifier =>
      found = name ∧ modifier = none ∧ isSpecialName name = false
  | .bracedVar name modifier, .var found other =>
      found = name ∧ other = modifier ∧ isSpecialName name = false
  | .substitution content, .commandSubstitution found _ => found = content
  | _, _ => False

/-- The lexer of double-quoted strings and the expander of texts find in the whole text the
reference that the token is. -/
structure SameReading (text : List Char) (kind : TokenKind Char) : Prop where
  quoted : ∃ span, tokenize ('\"' :: (text ++ ['\"'])) =
    .ok [⟨.doubleQuoted [.literal [] .double, kind.part, .literal [] .double], span⟩]
  body : ∃ c rest piece, text = c :: rest ∧ scanTextPiece c rest = (piece, []) ∧
    piece.Finds kind

/-- The references that are read alike: regular names whose modifier does not begin with a brace,
substitutions where quoted parentheses balance too, and backticks without a backslash before a
backtick, a backslash or a dollar. -/
def TokenKind.Alike : TokenKind Char → Prop
  | .var name modifier =>
      isSpecialName name = false ∧ ∀ text ∈ modifier, text.head? ≠ some '\x7b'
  | .commandSubstitution content false => Balanced '(' ')' content
  | .commandSubstitution content true =>
      content.IsChain fun c next => losesBackslash c next = false
  | _ => False

section Texts

variable {ε : Type} {host : Host ε} {context : Context}

theorem resolveSpecialVariable_regular {around : Surroundings ε} {name : List Char}
    (regular : isSpecialName name = false) : resolveSpecialVariable around context name = none := by
  have other (c : Char) (special : isSpecialVariable c = true) : name ≠ [c] := by
    rintro rfl
    rw [isSpecialName, special] at regular
    cases regular
  rw [resolveSpecialVariable, if_neg (other '?' rfl), if_neg (other '$' rfl),
    if_neg (other '#' rfl), if_neg (other '0' rfl)]

theorem bodyValue_piece {c : Char} {rest : List Char} {piece : TextPiece}
    (scanned : scanTextPiece c rest = (piece, [])) :
    bodyValue host context (c :: rest) = returned context (expandTextPiece host 0 piece) := by
  rw [bodyValue, expandHeredocBody, expandText, scanned]
  simp only [expandText, Program.pure_bind, List.append_nil, Program.bind_pure]

/-- What a text finds has the value of the reference. -/
theorem bodyValue_finds {c : Char} {rest : List Char} {piece : TextPiece} {kind : TokenKind Char}
    (scanned : scanTextPiece c rest = (piece, [])) (finds : piece.Finds kind) :
    bodyValue host context (c :: rest) = referenceValue host context kind := by
  rw [bodyValue_piece scanned]
  have plain (name : List Char) (regular : isSpecialName name = false) :
      returned context (textVariable host name 0) =
        returned context (expandVariableIn host ⟨0, 0⟩ name none) := by
    unfold expandVariableIn
    rw [returned_bind]
    dsimp only [Program.read]
    rw [resolveSpecialVariable_regular regular, returned, textVariable]
    cases context.vars name <;> rfl
  cases piece with
  | literal text => cases kind <;> cases finds
  | simpleVar name =>
      cases kind with
      | var found modifier =>
          obtain ⟨rfl, rfl, regular⟩ := finds
          rw [expandTextPiece]
          exact plain found regular
      | _ => cases finds
  | bracedVar name modifier =>
      cases kind with
      | var found other =>
          obtain ⟨rfl, rfl, regular⟩ := finds
          cases other with
          | none =>
              rw [expandTextPiece]
              exact plain found regular
          | some modifier =>
              rw [expandTextPiece, referenceValue]
              unfold expandVariableIn
              rw [returned_bind, returned_bind]
              dsimp only [Program.read]
              rw [resolveSpecialVariable_regular regular]
              rfl
      | _ => cases finds
  | substitution content =>
      cases kind with
      | commandSubstitution found backtick =>
          cases finds
          rw [expandTextPiece, returned_bind]
          dsimp only [Program.read, referenceValue, Host.executeUnparsed, id]
          cases Parser.parse content with
          | error error => rfl
          | ok body =>
              dsimp only [Except.mapError, bind, Except.bind, Except.toOption, Option.bind]
              cases host.executeSubstitution context body <;> rfl
      | _ => cases finds

end Texts

section Scanning

variable {depth : Nat} {later : List Char}

/-- The name of a braced reference goes as far as its characters do. -/
theorem scanBracedVar_name {front name : List Char}
    (inside : ∀ c ∈ name, isValidVariableChar c = true) :
    scanBracedVar depth front none (name ++ later) =
      scanBracedVar depth (front ++ name) none later := by
  induction name generalizing front with
  | nil => rw [List.append_nil, List.nil_append]
  | cons c name ih =>
      obtain ⟨first, rest⟩ := List.forall_mem_cons.mp inside
      have other (d : Char) (outside : isValidVariableChar d = false) : c ≠ d := by
        rintro rfl
        rw [first] at outside
        cases outside
      have noModifier : isModifierStart c = false := by
        rw [isModifierStart, beq_false_of_ne (other ':' rfl), beq_false_of_ne (other '-' rfl),
          beq_false_of_ne (other '+' rfl), beq_false_of_ne (other '=' rfl),
          beq_false_of_ne (other '?' rfl)]
        rfl
      rw [List.cons_append, scanBracedVar, if_neg (other '\x7d' rfl), if_neg (other '\x7b' rfl),
        if_neg (by simp), if_neg (by simp [noModifier]), if_pos first, ih rest, List.append_assoc]
      rfl

/-- A modifier that a text finds does not begin with a brace. -/
theorem scanBracedVar_head {name found : List Char} {modifier read : Option (List Char)}
    {text : List Char}
    (regular : ∀ body ∈ modifier, ∃ c rest, body = c :: rest ∧ c ≠ '\x7b')
    (scanned : scanBracedVar depth name modifier text = (.bracedVar found read, later)) :
    ∀ body ∈ read, body.head? ≠ some '\x7b' := by
  induction text generalizing depth name modifier with
  | nil => cases scanned
  | cons c text ih =>
      have grows : ∀ body ∈ modifier.map (· ++ [c]), ∃ d rest, body = d :: rest ∧ d ≠ '\x7b' := by
        intro body member
        obtain ⟨before, held, rfl⟩ := Option.map_eq_some_iff.mp member
        obtain ⟨d, rest, rfl, other⟩ := regular before held
        exact ⟨d, rest ++ [c], rfl, other⟩
      rw [scanBracedVar] at scanned
      split at scanned
      · split at scanned
        · cases scanned
          intro body member
          obtain ⟨d, rest, rfl, other⟩ := regular body member
          exact fun begins => other (Option.some.inj begins)
        · exact ih grows scanned
      · split at scanned
        · exact ih grows scanned
        · rename_i notOpening
          have begins : ∀ body ∈ some [c], ∃ d rest, body = d :: rest ∧ d ≠ '\x7b' := by
            rintro body ⟨⟩
            exact ⟨c, [], rfl, notOpening⟩
          split at scanned
          · exact ih grows scanned
          · split at scanned
            · exact ih begins scanned
            · split at scanned
              · exact ih (by rintro body ⟨⟩) scanned
              · exact ih begins scanned

theorem scanBracedVar_ne_simpleVar {name found : List Char} {modifier : Option (List Char)}
    {text : List Char} :
    scanBracedVar depth name modifier text ≠ (.simpleVar found, later) := by
  fun_induction scanBracedVar depth name modifier text with
  | case1 => rintro ⟨⟩
  | case2 => rintro ⟨⟩
  | case3 depth name modifier rest _ ih => exact ih
  | case4 depth name modifier rest _ ih => exact ih
  | case5 depth name modifier c rest _ _ _ ih => exact ih
  | case6 depth name modifier c rest _ _ _ _ ih => exact ih
  | case7 depth name modifier c rest _ _ _ _ _ ih => exact ih
  | case8 depth name modifier c rest _ _ _ _ _ ih => exact ih

/-- A text finds a regular name with its modifier, unless the modifier begins with a brace. -/
theorem scanBracedVar_regular {name modifier : List Char}
    (valid : isValidVariableName name = true)
    (ends : ∀ c ∈ modifier.head?, isValidVariableChar c = false)
    (balanced : Balanced '\x7b' '\x7d' modifier) (plain : modifier.head? ≠ some '\x7b') :
    scanBracedVar 1 [] none (name ++ (modifier ++ ['\x7d'])) =
      (.bracedVar name (modifierOf modifier), []) := by
  obtain ⟨-, -, -, -, inside⟩ := isValidVariableName_chars valid
  rw [scanBracedVar_name inside, List.nil_append]
  cases modifier with
  | nil => rfl
  | cons c rest =>
      have notOpening : c ≠ '\x7b' := fun is => plain (congrArg some is)
      have notClosing : c ≠ '\x7d' := by
        rintro rfl
        cases balanced
      have inner : nesting '\x7b' '\x7d' 0 rest = some 0 := by
        rw [Balanced, nesting, if_neg notOpening, if_neg notClosing] at balanced
        exact balanced
      have notInName : ¬isValidVariableChar c = true := by
        rw [ends c rfl]
        exact Bool.false_ne_true
      have step : scanBracedVar 1 name none (c :: (rest ++ ['\x7d'])) =
          scanBracedVar 1 name (some [c]) (rest ++ ['\x7d']) := by
        rw [scanBracedVar, if_neg notClosing, if_neg notOpening, if_neg (by simp)]
        split
        · rfl
        · rfl
      rw [List.cons_append, step, scanBracedVar_modifier inner]
      rfl

end Scanning

/-! ## The main result -/

theorem isSpecialName_of_valid {name : List Char} (valid : isValidVariableName name = true) :
    isSpecialName name = false := by
  obtain ⟨c, rest, rfl, starts, -⟩ := isValidVariableName_chars valid
  cases rest with
  | nil => exact isSpecialVariable_of_start starts
  | cons d rest => rfl

/-- A special variable without braces is literal text in double quotes and in a text. -/
theorem not_sameReading_special {c : Char} (special : isSpecialVariable c = true) :
    ¬SameReading ['$', c] (.var [c] none) := by
  rintro ⟨-, d, rest, piece, same, scanned, finds⟩
  obtain ⟨rfl, rfl⟩ := List.cons.inj same
  cases piece with
  | literal text => exact finds
  | simpleVar name =>
      obtain ⟨is, -, regular⟩ := finds
      rw [← is, isSpecialName, special] at regular
      cases regular
  | bracedVar name modifier =>
      obtain ⟨is, -, regular⟩ := finds
      rw [← is, isSpecialName, special] at regular
      cases regular
  | substitution content => exact finds

theorem sameReading_braced_iff {name modifier : List Char} (named : IsBracedName name modifier)
    (balanced : Balanced '\x7b' '\x7d' modifier) :
    SameReading ('$' :: '\x7b' :: (name ++ (modifier ++ ['\x7d'])))
        (.var name (modifierOf modifier)) ↔
      TokenKind.Alike (.var name (modifierOf modifier)) := by
  have reference := Reference.braced name modifier named balanced
  constructor
  · rintro ⟨-, d, rest, piece, same, scanned, finds⟩
    obtain ⟨rfl, rfl⟩ := List.cons.inj same
    have scan : scanBracedVar 1 [] none (name ++ (modifier ++ ['\x7d'])) = (piece, []) := scanned
    cases piece with
    | literal text => exact finds.elim
    | simpleVar found => exact absurd scan scanBracedVar_ne_simpleVar
    | bracedVar found read =>
        obtain ⟨rfl, is, regular⟩ := finds
        refine ⟨regular, ?_⟩
        rw [is]
        exact scanBracedVar_head (by rintro body ⟨⟩) scan
    | substitution content => exact finds.elim
  · rintro ⟨regular, plain⟩
    have head : modifier.head? ≠ some '\x7b' := by
      cases modifier with
      | nil => rintro ⟨⟩
      | cons c rest => exact plain (c :: rest) rfl
    have valid : isValidVariableName name = true ∧
        ∀ c ∈ modifier.head?, isValidVariableChar c = false := by
      rcases named with ⟨c, special, rfl⟩ | regularName
      · rw [isSpecialName, special] at regular
        cases regular
      · exact regularName
    have scan := scanBracedVar_regular valid.1 valid.2 balanced head
    refine ⟨tokenize_quoted reference ?_, _, _, _, rfl, scan, rfl, rfl, regular⟩
    rintro c - same
    have counted := congrArg List.length same
    simp only [List.length_cons, List.length_append, List.length_nil] at counted
    omega

/-- A text finds a substitution whose parentheses balance without regard to quotes. -/
theorem sameReading_substitution_iff {content : List Char} (closed : Closed content) :
    SameReading ('$' :: '(' :: (content ++ [')'])) (.commandSubstitution content false) ↔
      Balanced '(' ')' content := by
  have reference := Reference.substitution content closed
  constructor
  · rintro ⟨-, d, rest, piece, same, scanned, finds⟩
    obtain ⟨rfl, rfl⟩ := List.cons.inj same
    have scan : scanCommandSubst 1 [] (content ++ [')']) = (piece, []) := scanned
    cases piece with
    | substitution found =>
        obtain ⟨text, stands, -, balanced⟩ := balanced_of_scanCommandSubst scan
        rw [List.append_cancel_right stands]
        exact balanced
    | _ => exact finds.elim
  · intro balanced
    have scan := @scanCommandSubst_balanced 0 content [] [] balanced
    refine ⟨tokenize_quoted reference ?_, _, _, _, rfl, scan, rfl⟩
    rintro c special same
    obtain ⟨rfl, rest⟩ := List.cons.inj (List.cons.inj same).2
    cases special

/-- A text finds the commands between backticks where no backslash is dropped. -/
theorem sameReading_backticks_iff {content : List Char} (plain : ticked false content = true) :
    SameReading ('`' :: (content ++ ['`'])) (.commandSubstitution content true) ↔
      content.IsChain fun c next => losesBackslash c next = false := by
  have reference := Reference.backticks content plain
  have scan := @scanBacktickSubst_ticked content [] [] plain
  rw [← unbackslashed_eq_self_iff]
  constructor
  · rintro ⟨-, d, rest, piece, same, scanned, finds⟩
    obtain ⟨rfl, rfl⟩ := List.cons.inj same
    have is : piece = .substitution (unbackslashed content) :=
      congrArg Prod.fst (scanned.symm.trans scan)
    rw [is] at finds
    exact finds.symm
  · intro same
    refine ⟨tokenize_quoted reference ?_, _, _, _, rfl, scan, same.symm⟩
    rintro c - same
    cases same

theorem sameReading_name {name : List Char} (valid : isValidVariableName name = true) :
    SameReading ('$' :: name) (.var name none) := by
  have reference := Reference.name name valid
  have regular := isSpecialName_of_valid valid
  obtain ⟨c, rest, rfl, starts, inside⟩ := isValidVariableName_chars valid
  obtain ⟨taken, dropped⟩ := @takeWhile_front [] _ _ inside (by rintro d ⟨⟩)
  rw [List.append_nil] at taken dropped
  have scan : scanTextPiece '$' (c :: rest) = (.simpleVar (c :: rest), []) := by
    change scanTextDollar (c :: rest) = _
    rw [scanTextDollar, if_neg, if_neg, if_pos starts, taken, dropped]
    · rintro rfl
      cases starts
    · rintro rfl
      cases starts
  refine ⟨tokenize_quoted reference ?_, _, _, _, rfl, scan, rfl, rfl, regular⟩
  rintro d special same
  cases same
  rw [isSpecialVariable_of_start starts] at special
  cases special

/-- The reference is read alike exactly where it is of a form that is. -/
theorem Reference.sameReading_iff {text : List Char} {kind : TokenKind Char}
    (reference : Reference text kind) : SameReading text kind ↔ kind.Alike := by
  cases reference with
  | special c special =>
      refine iff_of_false (not_sameReading_special special) ?_
      rintro ⟨regular, -⟩
      rw [isSpecialName, special] at regular
      cases regular
  | name name valid =>
      refine iff_of_true (sameReading_name valid) ⟨isSpecialName_of_valid valid, ?_⟩
      rintro text ⟨⟩
  | braced name modifier named balanced => exact sameReading_braced_iff named balanced
  | substitution content closed => exact sameReading_substitution_iff closed
  | backticks content plain => exact sameReading_backticks_iff plain

/-- The value of a special variable begins with neither a dollar nor nothing. -/
theorem resolveSpecialVariable_shape {ε : Type} (around : Surroundings ε) (context : Context)
    {c : Char} (special : isSpecialVariable c = true) :
    ∃ d rest, resolveSpecialVariable around context [c] = some (d :: rest) ∧ d ≠ '$' := by
  have digits (n : Nat) : ∃ d rest, n.repr.toList = d :: rest ∧ d ≠ '$' := by
    rw [Nat.toList_repr]
    obtain ⟨d, rest, is⟩ := List.exists_cons_of_ne_nil (@Nat.toDigits_ne_nil n 10)
    refine ⟨d, rest, is, ?_⟩
    rintro rfl
    have digit := Nat.isDigit_of_mem_toDigits (by decide) (by decide)
      (is ▸ List.mem_cons_self : '$' ∈ Nat.toDigits 10 n)
    cases digit
  have is : c = '?' ∨ c = '$' ∨ c = '#' ∨ c = '0' := by
    simpa [isSpecialVariable, or_assoc] using special
  rcases is with rfl | rfl | rfl | rfl
  · have number : ∃ d rest, (toString context.lastExitCode).toList = d :: rest ∧ d ≠ '$' := by
      rw [Int.toString_eq_repr, Int.repr_eq_if]
      split
      · exact digits _
      · exact ⟨'-', _, String.toList_append, by decide⟩
    obtain ⟨d, rest, is, other⟩ := number
    exact ⟨d, rest, congrArg some is, other⟩
  · obtain ⟨d, rest, is, other⟩ := digits around.processId
    exact ⟨d, rest, congrArg some is, other⟩
  · exact ⟨'0', [], rfl, by decide⟩
  · exact ⟨'o', _, rfl, by decide⟩

/-- A text takes the mark of a special variable for literal text, for a modifier of a variable
without a name, or for the name of a variable. -/
theorem bodyValue_special {ε : Type} {host : Host ε} {context : Context} {text : List Char}
    {c : Char} (special : isSpecialVariable c = true) (reference : Reference text (.var [c] none))
    (noName : context.vars [] = none) (noZero : context.vars ['0'] = none) :
    bodyValue host context text = none ∨ bodyValue host context text = some [] ∨
      ∃ rest, bodyValue host context text = some ('$' :: rest) := by
  have is : c = '?' ∨ c = '$' ∨ c = '#' ∨ c = '0' := by
    simpa [isSpecialVariable, or_assoc] using special
  generalize same : TokenKind.var [c] none = kind at reference
  cases reference with
  | special d =>
      cases same
      refine Or.inr (Or.inr ⟨[c], ?_⟩)
      rcases is with rfl | rfl | rfl | rfl <;>
        simp [bodyValue, returned, expandHeredocBody, expandText, scanTextPiece, scanTextDollar,
          isValidVariableStart, expandTextPiece, Except.toOption]
  | name name valid =>
      cases same
      have regular := isSpecialName_of_valid valid
      rw [isSpecialName, special] at regular
      cases regular
  | braced name modifier named balanced =>
      injection same with nameIs modifierIs
      have noModifier : modifier = [] := by
        cases modifier with
        | nil => rfl
        | cons d rest => cases modifierIs
      subst nameIs noModifier
      have unnamed {rest : List Char} (mark : List Char)
          (scan : scanTextPiece '$' rest = (.bracedVar [] (some mark), [])) :
          bodyValue host context ('$' :: rest) =
            returned context (applyModifier host [] mark none ⟨0, 0⟩) := by
        rw [bodyValue_piece scan, expandTextPiece, returned_bind]
        dsimp only [Program.read]
        rw [noName]
      rcases is with rfl | rfl | rfl | rfl
      · refine Or.inl ((unnamed ['?'] rfl).trans ?_)
        rw [applyModifier_parsed rfl]
        rfl
      · refine Or.inr (Or.inl ((unnamed ['$'] rfl).trans ?_))
        rw [applyModifier_parsed rfl]
        rfl
      · refine Or.inr (Or.inl ((unnamed ['#'] rfl).trans ?_))
        rw [applyModifier_parsed rfl]
        rfl
      · left
        have scan : scanTextPiece '$' ['\x7b', '0', '\x7d'] = (.bracedVar ['0'] none, []) := rfl
        refine (bodyValue_piece scan).trans ?_
        rw [expandTextPiece, returned, textVariable, noZero]
        rfl
  | substitution content closed => cases same
  | backticks content plain => cases same

/-- The readings of a reference that the lexer reads alone agree exactly where it is of a form that
is read alike, and then it has one value in every context.  A special variable without a modifier
has another value in a text, wherever neither the variable without a name nor `0` is set. -/
theorem references_alike {text : List Char} {token : Token Char} (reads : ReadsAlone text token) :
    (SameReading text token.kind ↔ token.kind.Alike) ∧
      (token.kind.Alike → ∀ (ε : Type) (host : Host ε) (context : Context),
        quotedValue host context text = wordValue host context text ∧
          bodyValue host context text = wordValue host context text) ∧
      ∀ c, isSpecialVariable c = true → token.kind = .var [c] none →
        ∀ (ε : Type) (host : Host ε) (context : Context),
          context.vars [] = none → context.vars ['0'] = none →
            bodyValue host context text ≠ wordValue host context text := by
  have reference := reads.reference
  refine ⟨reference.sameReading_iff, fun alike ε host context => ?_, ?_⟩
  · obtain ⟨⟨span, quoted⟩, c, rest, piece, rfl, scanned, finds⟩ :=
      reference.sameReading_iff.mpr alike
    rw [wordValue_token reference reads.tokenize]
    exact ⟨wordValue_doubleQuoted reference quoted, bodyValue_finds scanned finds⟩
  · intro c special is ε host context noName noZero same
    rw [wordValue_token reference reads.tokenize] at same
    rw [is] at reference same
    obtain ⟨d, rest, resolved, other⟩ :=
      resolveSpecialVariable_shape host.surroundings context special
    have value : referenceValue host context (.var [c] none) = some (d :: rest) := by
      rw [referenceValue]
      unfold expandVariableIn
      rw [returned_bind]
      dsimp only [Program.read]
      rw [resolved]
      rfl
    rw [value] at same
    rcases bodyValue_special special reference noName noZero with fails | empty | ⟨rest', is'⟩
    · cases fails.symm.trans same
    · cases empty.symm.trans same
    · cases is'.symm.trans same
      exact other rfl

/-- A name with a default is read alike. -/
theorem references_alike_default :
    SameReading "${X:-a}".toList (.var ['X'] (some ":-a".toList)) ∧
      quotedValue quietHost bareContext "${X:-a}".toList =
        wordValue quietHost bareContext "${X:-a}".toList ∧
      bodyValue quietHost bareContext "${X:-a}".toList =
        wordValue quietHost bareContext "${X:-a}".toList := by
  have reads : ReadsAlone "${X:-a}".toList ⟨.var ['X'] (some ":-a".toList), ⟨0, 7⟩⟩ :=
    ⟨Or.inl rfl, 7, by with_unfolding_all rfl⟩
  have alike : TokenKind.Alike (.var ['X'] (some ":-a".toList)) := by
    refine ⟨rfl, ?_⟩
    rintro text ⟨⟩
    decide
  obtain ⟨same, values, -⟩ := references_alike reads
  exact ⟨same.mpr alike, values alike _ quietHost bareContext⟩

/-- In double quotes `$?` is not the exit code, nor is it in a here-document, where `${?}` fails. -/
theorem special_literal : ¬∀ (text : List Char) (token : Token Char), ReadsAlone text token →
    quotedValue quietHost bareContext text = wordValue quietHost bareContext text ∧
      bodyValue quietHost bareContext text = wordValue quietHost bareContext text := by
  intro keep
  have reads : ReadsAlone "$?".toList ⟨.var ['?'] none, ⟨0, 2⟩⟩ :=
    ⟨Or.inl rfl, 2, by with_unfolding_all rfl⟩
  obtain ⟨quoted, -⟩ := keep _ _ reads
  have word : wordValue quietHost bareContext "$?".toList = some ['0'] := by
    with_unfolding_all rfl
  have literal : quotedValue quietHost bareContext "$?".toList = some ['$', '?'] := by
    with_unfolding_all rfl
  cases literal.symm.trans (quoted.trans word)

end OddJobs.Shell
