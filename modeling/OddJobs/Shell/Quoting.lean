import OddJobs.Shell.Expansion
import OddJobs.Shell.Readers

/-!
# Quoting

What the source of a word stands for: text and expansions in quotes are neither split nor
taken for a pattern, and expansions outside quotes are split at white space.  The expander
sees the parts of a word only, and guesses their quotes.
-/

namespace OddJobs.Shell

open Library

/-! ## The source of a word -/

def TokenKind.isQuoted : TokenKind Char → Bool
  | singleQuoted _ => true
  | doubleQuoted _ => true
  | _ => false

abbrev SourcePart := Bool × WordPart Char CommandList

def sourceParts (parse : List Char → Except ParseError CommandList) (run : List (Token Char)) :
    Except ParseError (List SourcePart) := do
  let parts ← run.mapM fun token => do
    let parts ← tokenToParts parse token
    return parts.map (token.kind.isQuoted, ·)
  return parts.flatten

/-- What the source of a word becomes, character by character. -/
inductive Mark where
  /-- There is a field here, even where it is empty. -/
  | present
  | char (c : Char) (active : Bool)
  | blank
  deriving DecidableEq, Repr

namespace Mark

def isBlank : Mark → Bool
  | blank => true
  | _ => false

def of (letter : Char × Bool) : Mark := .char letter.1 letter.2

def character : Mark → Option (Char × Bool)
  | char c active => some (c, active)
  | _ => none

end Mark

def defaultIfs : List Char := [' ', '\t', '\n']

def quotedMarks (text : List Char) : List Mark := .present :: text.map (.char · false)

/-- Text outside quotes: what is not escaped may act in a pattern. -/
def unquotedMarks (text : List Char) : List Mark :=
  .present :: (processGlobEscapes text).map Mark.of

def splitMarks (text : List Char) : List Mark :=
  text.map fun c => if defaultIfs.contains c then .blank else .char c false

/-- The fields between blanks, and which of their characters may act in a pattern. -/
def fieldsOfMarks (marks : List Mark) : List (List (Char × Bool)) :=
  (groups Mark.isBlank marks).map (·.filterMap Mark.character)

section Reference

variable {ε : Type} (around : Surroundings ε)

def marksOfPart (span : Span) (first : Bool) (context : Context) :
    SourcePart → Except ε (List Mark × Context)
  | (quoted, .literal value style) =>
      .ok (if quoted then quotedMarks value
        else unquotedMarks (literalText around first value style), context)
  | (quoted, .var name modifier) => do
      let (value, context) ← expandVariable around span context name modifier
      return (if quoted then quotedMarks value else splitMarks value, context)
  | (quoted, .commandSubstitution body _) => do
      let value ← expandSubstitution around context body
      return (if quoted then quotedMarks value else splitMarks value, context)

def marksOfParts (span : Span) (first : Bool) (context : Context) :
    List SourcePart → Except ε (List Mark × Context)
  | [] => .ok ([], context)
  | part :: rest => do
      let (marks, context) ← marksOfPart around span first context part
      let (later, context) ← marksOfParts span false context rest
      return (marks ++ later, context)

def pathsOfField (pathnames : Pathnames ε) (field : List (Char × Bool)) :
    Except ε (List (List Char)) :=
  if field.any fun letter => letter.2 && isPatternChar letter.1 then
    pathnames (field.map fun letter => (letter.1, letter.2 && isPatternChar letter.1))
  else .ok [field.map (·.1)]

def sourceFields (pathnames : Pathnames ε) (context : Context) (source : List SourcePart)
    (span : Span) : Except ε (List (List Char) × Context) := do
  let (marks, context) ← marksOfParts around span true context source
  let results ← (fieldsOfMarks marks).mapM (pathsOfField pathnames)
  return (results.flatten, context)

end Reference

/-! ## Bytes of characters -/

theorem length_bytes (text : List Char) : text.length ≤ (bytes text).length := by
  induction text with
  | nil => exact Nat.le_refl 0
  | cons c text ih =>
      have positive : 0 < (String.utf8EncodeChar c).length :=
        List.length_pos_iff.mpr String.utf8EncodeChar_ne_nil
      rw [bytes_cons, List.length_append, List.length_cons]
      omega

def isAscii (c : Char) : Bool := c.toNat < 128

theorem utf8_ascii {c : Char} (ascii : isAscii c = true) :
    String.utf8EncodeChar c = [UInt8.ofNat c.toNat] ∧ Char.ofNat (UInt8.ofNat c.toNat).toNat = c := by
  have small : c.toNat < 128 := of_decide_eq_true ascii
  have byte : (UInt8.ofNat c.toNat).toNat = c.toNat := by
    rw [UInt8.toNat_ofNat']
    omega
  refine ⟨?_, by rw [byte, Char.ofNat_toNat]⟩
  rw [String.utf8EncodeChar]
  exact if_pos (Nat.le_of_lt_succ small)

/-- The bytes of other characters are no ASCII characters. -/
theorem utf8_other {c : Char} (other : isAscii c = false) :
    2 ≤ (String.utf8EncodeChar c).length ∧
      ∀ byte ∈ String.utf8EncodeChar c, 128 ≤ byte.toNat := by
  have large : 128 ≤ c.val.toNat := Nat.le_of_not_lt (of_decide_eq_false other)
  rw [String.utf8EncodeChar, if_neg (show ¬c.val.toNat ≤ 0x7f by omega)]
  split
  · refine ⟨Nat.le_refl 2, ?_⟩
    intro byte member
    simp only [List.mem_cons, List.not_mem_nil, or_false] at member
    rcases member with rfl | rfl <;>
    · rw [UInt8.toNat_ofNat']
      omega
  · split
    · refine ⟨Nat.le_succ 2, ?_⟩
      intro byte member
      simp only [List.mem_cons, List.not_mem_nil, or_false] at member
      rcases member with rfl | rfl | rfl <;>
      · rw [UInt8.toNat_ofNat']
        omega
    · refine ⟨Nat.le_add_left 2 2, ?_⟩
      intro byte member
      simp only [List.mem_cons, List.not_mem_nil, or_false] at member
      rcases member with rfl | rfl | rfl | rfl <;>
      · rw [UInt8.toNat_ofNat']
        omega

theorem toNat_ofByte (byte : UInt8) : (Char.ofNat byte.toNat).toNat = byte.toNat := by
  have small := byte.toNat_lt
  have valid : byte.toNat.isValidChar := Or.inl (by omega)
  rw [Char.ofNat, dif_pos valid]
  rfl

theorem isPatternChar_ascii {c : Char} (pattern : isPatternChar c = true) : isAscii c = true := by
  rw [isPatternChar, Bool.or_eq_true, Bool.or_eq_true, beq_iff_eq, beq_iff_eq, beq_iff_eq]
    at pattern
  rcases pattern with (rfl | rfl) | rfl <;> rfl

/-- A byte of a character acts in a pattern only where the character does. -/
theorem any_pattern_utf8 (c : Char) (active : Bool) :
    (((String.utf8EncodeChar c).zip
      (List.replicate (String.utf8EncodeChar c).length active)).any fun (byte, eligible) =>
        eligible && isPatternChar (Char.ofNat byte.toNat)) = (active && isPatternChar c) := by
  by_cases ascii : isAscii c = true
  · obtain ⟨single, same⟩ := utf8_ascii ascii
    rw [single]
    change ((active && isPatternChar (Char.ofNat (UInt8.ofNat c.toNat).toNat)) || false) = _
    rw [same, Bool.or_false]
  · have other := Bool.eq_false_iff.mpr ascii
    have notPattern : isPatternChar c = false := by
      rw [← Bool.not_eq_true]
      exact fun pattern => ascii (isPatternChar_ascii pattern)
    rw [notPattern, Bool.and_false, List.any_eq_false]
    rintro ⟨byte, eligible⟩ member
    have inside := (List.of_mem_zip member).1
    have large := (utf8_other other).2 byte inside
    have noPattern : isPatternChar (Char.ofNat byte.toNat) = false := by
      rw [← Bool.not_eq_true]
      intro pattern
      have small : (Char.ofNat byte.toNat).toNat < 128 :=
        of_decide_eq_true (isPatternChar_ascii pattern)
      rw [toNat_ofByte] at small
      omega
    dsimp only
    rw [noPattern, Bool.and_false]
    exact Bool.false_ne_true

/-! ## Fields as marked characters -/

def GlobEligibility.of (field : List (Char × Bool)) : GlobEligibility :=
  ⟨field.map (·.1), field.flatMap fun letter =>
    List.replicate (String.utf8EncodeChar letter.1).length letter.2⟩

theorem GlobEligibility.push_of (field : List (Char × Bool)) (letter : Char × Bool) :
    (if letter.2 then (GlobEligibility.of field).pushEligible [letter.1]
      else (GlobEligibility.of field).pushIneligible [letter.1]) = .of (field ++ [letter]) := by
  obtain ⟨c, active⟩ := letter
  have single : bytes [c] = String.utf8EncodeChar c := List.flatMap_singleton _ _
  cases active <;> simp [GlobEligibility.of, pushEligible, pushIneligible, single]

/-- A field has a pattern where a character of it acts in one. -/
theorem GlobEligibility.hasGlobPattern_of (field : List (Char × Bool)) :
    (GlobEligibility.of field).hasGlobPattern =
      field.any fun letter => letter.2 && isPatternChar letter.1 := by
  induction field with
  | nil => rfl
  | cons first field ih =>
      obtain ⟨c, active⟩ := first
      rw [GlobEligibility.hasGlobPattern, GlobEligibility.of] at ih ⊢
      rw [List.map_cons, bytes_cons, List.flatMap_cons, List.zip_append
        (List.length_replicate (n := (String.utf8EncodeChar c).length) (a := active)).symm,
        List.any_append, ih, List.any_cons, any_pattern_utf8]

theorem pushLiteral_of (field : List (Char × Bool)) (part : ExpandedField) :
    pushLiteral (.of field) part = .of (field ++ literalBytes part) := by
  rw [pushLiteral]
  generalize literalBytes part = found
  induction found generalizing field with
  | nil =>
      rw [List.append_nil]
      rfl
  | cons first found ih =>
      rw [List.foldl_cons, GlobEligibility.push_of, ih, List.append_assoc,
        List.singleton_append]

def expanderMarks (part : ExpandedField) : List Mark :=
  if part.splittable then splitMarks part.text
  else .present :: (literalBytes part).map Mark.of

/-- The fields that are collected are the groups of marks that are read. -/
structure Represents (splitting : Splitting) (grouping : Grouping Mark) : Prop where
  fields : splitting.fields =
    grouping.closed.map fun group => GlobEligibility.of (group.filterMap Mark.character)
  current : splitting.current = .of (grouping.current.filterMap Mark.character)
  hasContent : splitting.hasContent = !grouping.current.isEmpty

namespace Represents

variable {splitting : Splitting} {grouping : Grouping Mark}

theorem isField (same : Represents splitting grouping) :
    splitting.isField = !grouping.current.isEmpty := by
  rw [Splitting.isField, same.current, same.hasContent]
  cases grouping.current with
  | nil => rfl
  | cons first rest => exact Bool.or_true _

theorem complete (same : Represents splitting grouping) :
    Represents splitting.complete ⟨grouping.close, []⟩ := by
  rw [Splitting.complete, same.isField, Grouping.close]
  rcases current : grouping.current with _ | ⟨first, rest⟩
  · have stays : splitting.current = .new := by
      rw [same.current, current]
      rfl
    have empty : splitting.hasContent = false := by
      rw [same.hasContent, current]
      rfl
    exact ⟨same.fields, stays, empty⟩
  · refine ⟨?_, rfl, rfl⟩
    change splitting.fields ++ [splitting.current] = (grouping.closed ++ [first :: rest]).map _
    rw [same.fields, same.current, current, List.map_append]
    rfl

theorem char (same : Represents splitting grouping) (letter : Char × Bool) :
    Represents { splitting with
      current := if letter.2 then splitting.current.pushEligible [letter.1]
        else splitting.current.pushIneligible [letter.1]
      hasContent := true } (grouping.step Mark.isBlank (.of letter)) := by
  refine ⟨same.fields, ?_, ?_⟩
  · change _ = GlobEligibility.of ((grouping.current ++ [Mark.of letter]).filterMap Mark.character)
    rw [same.current, GlobEligibility.push_of, List.filterMap_append]
    rfl
  · change true = !(grouping.current ++ [Mark.of letter]).isEmpty
    cases grouping.current <;> rfl

/-- Blanks behind a separator change nothing. -/
theorem blanks (closed : List (List Mark)) (text : List Char)
    (all : ∀ c ∈ text, defaultIfs.contains c = true) :
    (splitMarks text).foldl (Grouping.step Mark.isBlank) ⟨closed, []⟩ = ⟨closed, []⟩ := by
  induction text with
  | nil => rfl
  | cons c text ih =>
      rw [splitMarks, List.map_cons, if_pos (all c List.mem_cons_self), List.foldl_cons]
      exact ih fun other member => all other (List.mem_cons_of_mem c member)

theorem splitMarks_append (first second : List Char) :
    splitMarks (first ++ second) = splitMarks first ++ splitMarks second := List.map_append

theorem splitValue (same : Represents splitting grouping) (text : List Char) :
    Represents (splitting.splitValue defaultIfs text)
      ((splitMarks text).foldl (Grouping.step Mark.isBlank) grouping) := by
  fun_induction Splitting.splitValue defaultIfs splitting text generalizing grouping with
  | case1 => exact same
  | case2 splitting c rest separates ih =>
      have later := ih same.complete
      have whole : rest = rest.takeWhile (defaultIfs.contains ·) ++
          rest.dropWhile (defaultIfs.contains ·) := (List.takeWhile_append_dropWhile ..).symm
      rw [splitMarks, List.map_cons, if_pos separates, List.foldl_cons]
      change Represents _ ((splitMarks rest).foldl _ ⟨grouping.close, []⟩)
      have skipped : (splitMarks rest).foldl (Grouping.step Mark.isBlank) ⟨grouping.close, []⟩ =
          (splitMarks (rest.dropWhile (defaultIfs.contains ·))).foldl (Grouping.step Mark.isBlank)
            ⟨grouping.close, []⟩ := by
        conv_lhs => rw [whole, splitMarks_append, List.foldl_append]
        rw [blanks]
        exact List.all_eq_true.mp List.all_takeWhile
      rw [skipped]
      exact later
  | case3 splitting c rest inside ih =>
      rw [splitMarks, List.map_cons, if_neg inside, List.foldl_cons]
      exact ih (same.char (c, false))

theorem addPart (same : Represents splitting grouping) (part : ExpandedField) :
    Represents (splitting.addPart defaultIfs part)
      ((expanderMarks part).foldl (Grouping.step Mark.isBlank) grouping) := by
  rw [Splitting.addPart, expanderMarks]
  split
  · exact same.splitValue part.text
  · -- The literal has no blanks, and all of it joins the current field.
    have joined : ∀ mark ∈ Mark.present :: (literalBytes part).map Mark.of,
        mark.isBlank = false := by
      intro mark member
      rcases List.mem_cons.mp member with rfl | letter
      · rfl
      · obtain ⟨found, -, rfl⟩ := List.mem_map.mp letter
        rfl
    have characters (found : List (Char × Bool)) :
        (found.map Mark.of).filterMap Mark.character = found := by
      rw [List.filterMap_map]
      exact List.filterMap_some
    rw [Grouping.foldl_open grouping joined]
    refine ⟨same.fields, ?_, ?_⟩
    · rw [same.current, pushLiteral_of]
      change _ = GlobEligibility.of ((grouping.current ++ _).filterMap _)
      rw [List.filterMap_append, List.filterMap_cons_none rfl, characters]
    · change true = !(grouping.current ++ Mark.present :: _).isEmpty
      cases grouping.current <;> rfl

theorem addParts (same : Represents splitting grouping) (parts : List ExpandedField) :
    Represents (parts.foldl (Splitting.addPart defaultIfs) splitting)
      ((parts.flatMap expanderMarks).foldl (Grouping.step Mark.isBlank) grouping) := by
  induction parts generalizing splitting grouping with
  | nil => exact same
  | cons part parts ih =>
      rw [List.foldl_cons, List.flatMap_cons, List.foldl_append]
      exact ih (same.addPart part)

end Represents

/-- The expander's fields are the groups of the marks that it sees. -/
theorem splitFields_eq (parts : List ExpandedField) :
    splitFieldsWithEligibility parts defaultIfs =
      (fieldsOfMarks (parts.flatMap expanderMarks)).map GlobEligibility.of := by
  have start : Represents .new ⟨[], []⟩ := ⟨rfl, rfl, rfl⟩
  have ended := (start.addParts parts).complete.fields
  rw [splitFieldsWithEligibility]
  refine ended.trans ?_
  rw [fieldsOfMarks, groups_eq_foldl, List.map_map]
  rfl

/-! ## Both readings of the same parts -/

def isLiteral : WordPart Char CommandList → Bool
  | .literal _ _ => true
  | _ => false

abbrev Piece := SourcePart × ExpandedField

def pieceMarks (piece : Piece) : List Mark :=
  if piece.2.splittable then
    if piece.1.1 then quotedMarks piece.2.text else splitMarks piece.2.text
  else .present :: (piece.2.text.zip piece.2.globEligible).map Mark.of

/-- The style of a literal tells whether it stands in quotes. -/
def Styled (part : SourcePart) : Prop :=
  ∀ value style, part.2 = .literal value style → (part.1 = true ↔ style ≠ .unquoted)

/-- The field of a piece is the one of its part. -/
structure Proper (piece : Piece) : Prop where
  splittable : piece.2.splittable = !isLiteral piece.1.2
  covers : piece.2.splittable = false → piece.2.text.length ≤ piece.2.globEligible.length
  inactive : piece.1.1 = true → piece.2.splittable = false →
    ∀ eligible ∈ piece.2.globEligible, eligible = false

section Pieces

variable {ε : Type} {around : Surroundings ε} {span : Span} {first : Bool} {context : Context}

theorem zip_ineligible {text : List Char} {count : Nat} (enough : text.length ≤ count) :
    text.zip (List.replicate count false) = text.map (·, false) := by
  induction text generalizing count with
  | nil => rfl
  | cons c text ih =>
      obtain ⟨count, rfl⟩ := Nat.exists_eq_add_of_le' (Nat.one_le_of_lt enough)
      rw [List.replicate_succ, List.zip_cons_cons, ih (Nat.le_of_succ_le_succ enough)]
      rfl

/-- The same part expanded both ways. -/
theorem marksOfPart_eq {part : SourcePart} (styled : Styled part) :
    marksOfPart around span first context part =
      (fieldOfPart around span first context part.2).map fun found =>
        (pieceMarks (part, found.1), found.2) := by
  obtain ⟨quoted, part⟩ := part
  cases part with
  | literal value style =>
      have same := styled value style rfl
      rw [marksOfPart, fieldOfPart]
      change Except.ok _ = Except.ok _
      congr 2
      by_cases unquoted : style = .unquoted
      · have outside : quoted = false := by
          rw [← Bool.not_eq_true]
          exact fun inside => same.mp inside unquoted
        rw [outside, if_neg Bool.false_ne_true, pieceMarks, unquotedMarks, decide_eq_true unquoted]
        refine congrArg (Mark.present :: ·) (congrArg (List.map Mark.of) ?_)
        let processed := processGlobEscapes (literalText around first value style)
        change processed = (processed.map (·.1)).zip (processed.map (·.2))
        rw [List.zip_map']
        exact (List.map_id processed).symm
      · have inside : quoted = true := same.mpr unquoted
        rw [inside, if_pos rfl, pieceMarks, quotedMarks, decide_eq_false unquoted]
        have text : literalText around first value style = value := by
          rw [literalText, if_neg fun both => unquoted both.2]
        rw [text]
        refine congrArg (Mark.present :: ·) ?_
        change _ = (value.zip (List.replicate (bytes value).length false)).map Mark.of
        rw [zip_ineligible (length_bytes value), List.map_map]
        rfl
  | var name modifier =>
      rw [marksOfPart, fieldOfPart]
      rcases expandVariable around span context name modifier with error | ⟨value, after⟩
      · rfl
      · rfl
  | commandSubstitution body backtick =>
      rw [marksOfPart, fieldOfPart]
      rcases expandSubstitution around context body with error | value
      · rfl
      · rfl

theorem fieldOfPart_proper {part : SourcePart} (styled : Styled part) {field : ExpandedField}
    {after : Context} (expanded : fieldOfPart around span first context part.2 = .ok (field, after)) :
    Proper (part, field) := by
  obtain ⟨quoted, part⟩ := part
  cases part with
  | literal value style =>
      cases expanded
      have same := styled value style rfl
      by_cases unquoted : style = .unquoted
      · have outside : quoted = false := by
          rw [← Bool.not_eq_true]
          exact fun inside => same.mp inside unquoted
        refine ⟨?_, ?_, ?_⟩
        · rw [decide_eq_true unquoted]
          rfl
        · intro _
          rw [decide_eq_true unquoted]
          change ((processGlobEscapes _).map _).length ≤ ((processGlobEscapes _).map _).length
          exact Nat.le_of_eq ((List.length_map _).trans (List.length_map _).symm)
        · intro inside
          exact absurd (outside.symm.trans inside) Bool.false_ne_true
      · rw [decide_eq_false unquoted]
        refine ⟨rfl, ?_, ?_⟩
        · intro _
          change _ ≤ (List.replicate _ false).length
          rw [List.length_replicate]
          exact length_bytes _
        · intro _ _ eligible member
          exact List.eq_of_mem_replicate member
  | var name modifier =>
      obtain ⟨found, -, returned⟩ := bind_eq_ok.mp expanded
      cases returned
      exact ⟨rfl, by rintro ⟨⟩, by rintro _ ⟨⟩⟩
  | commandSubstitution body backtick =>
      obtain ⟨found, -, returned⟩ := bind_eq_ok.mp expanded
      cases returned
      exact ⟨rfl, by rintro ⟨⟩, by rintro _ ⟨⟩⟩

theorem fieldsOfParts_proper {source : List SourcePart} (styled : ∀ part ∈ source, Styled part)
    {fields : List ExpandedField} {after : Context}
    (expanded : fieldsOfParts around span first context (source.map (·.2)) = .ok (fields, after)) :
    fields.length = source.length ∧ ∀ piece ∈ source.zip fields, Proper piece := by
  induction source generalizing first context fields with
  | nil =>
      cases expanded
      exact ⟨rfl, fun _ none => absurd none List.not_mem_nil⟩
  | cons part source ih =>
      rw [List.map_cons] at expanded
      obtain ⟨⟨field, middle⟩, one, afterOne⟩ := bind_eq_ok.mp expanded
      obtain ⟨⟨others, last⟩, rest, returned⟩ := bind_eq_ok.mp afterOne
      cases returned
      obtain ⟨counted, all⟩ := ih (fun other member => styled other (List.mem_cons_of_mem part member))
        rest
      refine ⟨congrArg (· + 1) counted, ?_⟩
      intro piece member
      rw [List.zip_cons_cons] at member
      rcases List.mem_cons.mp member with rfl | later
      · exact fieldOfPart_proper (styled part List.mem_cons_self) one
      · exact all piece later

/-- The marks of a word are those of its pieces. -/
theorem marksOfParts_eq {source : List SourcePart} (styled : ∀ part ∈ source, Styled part) :
    marksOfParts around span first context source =
      (fieldsOfParts around span first context (source.map (·.2))).map fun found =>
        ((source.zip found.1).flatMap pieceMarks, found.2) := by
  induction source generalizing first context with
  | nil => rfl
  | cons part source ih =>
      rw [marksOfParts, marksOfPart_eq (styled part List.mem_cons_self), List.map_cons,
        fieldsOfParts]
      rcases fieldOfPart around span first context part.2 with error | ⟨field, middle⟩
      · rfl
      · have rest := @ih false middle fun other member =>
          styled other (List.mem_cons_of_mem part member)
        change (marksOfParts around span false middle source >>= _) = Except.map _
          (fieldsOfParts around span false middle (source.map (·.2)) >>= _)
        rw [rest]
        rcases found : fieldsOfParts around span false middle (source.map (·.2))
          with error | ⟨fields, last⟩
        · rw [found]
          rfl
        · rw [found]
          rfl

/-- Without splitting, the texts are put together. -/
theorem expandWordFrom_text (result : GlobEligibility) (parts : List (WordPart Char CommandList)) :
    (expandWordFrom around span first result context parts).map (fun found =>
        (found.1.text, found.2)) =
      (fieldsOfParts around span first context parts).map fun found =>
        (result.text ++ found.1.flatMap (·.text), found.2) := by
  induction parts generalizing first context result with
  | nil =>
      rw [expandWordFrom, fieldsOfParts]
      change Except.ok (result.text, context) = Except.ok (result.text ++ [], context)
      rw [List.append_nil]
  | cons part parts ih =>
      have step : (expandPart around span first result context part).map (fun found =>
            (found.1.text, found.2)) =
          (fieldOfPart around span first context part).map fun found =>
            (result.text ++ found.1.text, found.2) := by
        cases part with
        | literal value style =>
            rw [expandPart, fieldOfPart]
            by_cases unquoted : style = .unquoted
            · rw [if_pos unquoted, decide_eq_true unquoted]
              rfl
            · rw [if_neg unquoted, decide_eq_false unquoted]
              have text : literalText around first value style = value := by
                rw [literalText, if_neg fun both => unquoted both.2]
              rw [text]
              rfl
        | var name modifier =>
            rw [expandPart, fieldOfPart]
            rcases expandVariable around span context name modifier with error | ⟨value, after⟩
            · rfl
            · rfl
        | commandSubstitution body backtick =>
            rw [expandPart, fieldOfPart]
            rcases expandSubstitution around context body with error | value
            · rfl
            · rfl
      rw [expandWordFrom, fieldsOfParts]
      rcases one : expandPart around span first result context part with error | ⟨next, middle⟩
      · rcases field : fieldOfPart around span first context part with other | found
        · rw [one, field] at step
          cases step
          rfl
        · rw [one, field] at step
          cases step
      · rcases found : fieldOfPart around span first context part with other | ⟨field, after⟩
        · rw [one, found] at step
          cases step
        · rw [one, found] at step
          obtain ⟨text, same⟩ := Prod.mk.inj (Except.ok.inj step)
          subst same
          have rest := @ih false middle next
          change Except.map _ (expandWordFrom around span false next middle parts) =
            Except.map _ (fieldsOfParts around span false middle parts >>= _)
          rw [rest, text]
          rcases fieldsOfParts around span false middle parts with error | ⟨fields, last⟩
          · rfl
          · change Except.ok (result.text ++ field.text ++ fields.flatMap (·.text), last) =
              Except.ok (result.text ++ (field :: fields).flatMap (·.text), last)
            rw [List.append_assoc, List.flatMap_cons]

end Pieces

end OddJobs.Shell
