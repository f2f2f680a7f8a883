import OddJobs.Shell.Fields
import OddJobs.Shell.Nesting

/-!
# Escaped words

A text with a backslash before each character is read twice: the lexer takes the backslashes
away except before glob metacharacters, and the expander those that are left.
-/

namespace OddJobs.Shell

open Library

def escaped (text : List Char) : List Char := text.flatMap (['\\', ·])

def keptEscapes (text : List Char) : List Char := text.flatMap (escapedInWord '\\')

theorem escapedInWord_of (c : Char) :
    escapedInWord '\\' c = if isPatternChar c then ['\\', c] else [c] := by
  rw [escapedInWord, isPatternChar]
  simp only [char_self, Bool.or_eq_true, beq_iff_eq, or_assoc]

theorem keptEscapes_cons (c : Char) (text : List Char) :
    keptEscapes (c :: text) = escapedInWord '\\' c ++ keptEscapes text := List.flatMap_cons

/-! ## The word of an escaped text -/

def OneLine (text : List Char) : Prop := ∀ c ∈ text, c ≠ '\n' ∧ c ≠ '\r'

def EndsWord (behind : List Char) : Prop := ∀ c ∈ behind.head?, isWordBoundary c = true

theorem lineContinuation_escaped {pos : Nat} {c : Char} {rest : List Char}
    (inLine : c ≠ '\n' ∧ c ≠ '\r') : lineContinuation ⟨pos, '\\' :: c :: rest⟩ = none := by
  let cursor : Cursor Char := ⟨pos, '\\' :: c :: rest⟩
  have noNewline : cursor.next.peekChar ≠ some '\n' :=
    fun newline => inLine.1 (Option.some.inj newline)
  have noCarriage : cursor.next.peekChar ≠ some '\r' :=
    fun carriage => inLine.2 (Option.some.inj carriage)
  have backslash : cursor.peekChar = some '\\' := rfl
  rw [lineContinuation, if_pos backslash]
  dsimp only
  rw [if_neg noNewline, if_neg noCarriage]

theorem readWord_escaped {word : List Char} {stop pos : Nat} {c : Char} {rest : List Char}
    (inLine : c ≠ '\n' ∧ c ≠ '\r') :
    readWord word stop ⟨pos, '\\' :: c :: rest⟩ =
      readWord (word ++ escapedInWord '\\' c) (pos + size '\\' + size c)
        ⟨pos + size '\\' + size c, rest⟩ := by
  have noContinuation := @lineContinuation_escaped pos c rest inLine
  rw [readWord.eq_def]
  dsimp only
  split
  · rename_i continues
    rw [noContinuation] at continues
    cases continues
  · have other : Letter.char c ≠ '\n' ∧ Letter.char c ≠ '\r' := inLine
    rw [if_pos (char_self '\\'), if_pos other]

def width (text : List Char) : Nat := (text.map size).sum

theorem readWord_end {word : List Char} {stop pos : Nat} {behind : List Char}
    (ends : EndsWord behind) : readWord word stop ⟨pos, behind⟩ = (word, stop, ⟨pos, behind⟩) := by
  cases behind with
  | nil => rw [readWord.eq_def]
  | cons c behind =>
      have boundary : isWordBoundary c = true := ends c rfl
      refine readWord_boundary ?_ boundary
      rintro rfl
      cases boundary

theorem readWord_escapedText {word text : List Char} {pos : Nat} {behind : List Char}
    (lines : OneLine text) (ends : EndsWord behind) :
    readWord word pos ⟨pos, escaped text ++ behind⟩ =
      (word ++ keptEscapes text, pos + width (escaped text),
        ⟨pos + width (escaped text), behind⟩) := by
  induction text generalizing word pos with
  | nil =>
      have nothing : word ++ keptEscapes [] = word := List.append_nil word
      rw [nothing]
      exact readWord_end ends
  | cons c text ih =>
      have step := @readWord_escaped word pos pos c (escaped text ++ behind)
        (lines c List.mem_cons_self)
      have rest := @ih (word ++ escapedInWord '\\' c) (pos + size '\\' + size c)
        fun other member => lines other (List.mem_cons_of_mem c member)
      have wide : width (escaped (c :: text)) = size '\\' + size c + width (escaped text) := by
        rw [escaped, List.flatMap_cons, width, List.map_append, List.sum_append]
        rfl
      refine step.trans (rest.trans ?_)
      rw [keptEscapes_cons, List.append_assoc, wide, ← Nat.add_assoc, ← Nat.add_assoc]

theorem skipWhitespace_escaped {pos : Nat} {c : Char} {rest : List Char}
    (inLine : c ≠ '\n' ∧ c ≠ '\r') :
    skipWhitespace ⟨pos, '\\' :: c :: rest⟩ = ⟨pos, '\\' :: c :: rest⟩ := by
  have noContinuation := @lineContinuation_escaped pos c rest inLine
  have notBlank : ¬((⟨pos, '\\' :: c :: rest⟩ : Cursor Char).peekChar = some ' ' ∨
      (⟨pos, '\\' :: c :: rest⟩ : Cursor Char).peekChar = some '\t') := by
    rintro (space | tab)
    · cases space
    · cases tab
  rw [skipWhitespace, dif_neg notBlank]
  split
  · rename_i continues
    rw [noContinuation] at continues
    cases continues
  · rfl

/-- A number directly before a redirection is taken for its file descriptor. -/
def NumbersRedirection (text behind : List Char) : Prop :=
  (parseU32 text).isSome ∧ (behind.head? = some '<' ∨ behind.head? = some '>')

theorem keptEscapes_eq {text : List Char} (plain : ∀ c ∈ text, isPatternChar c = false) :
    keptEscapes text = text := by
  rw [keptEscapes]
  have each : ∀ c ∈ text, escapedInWord '\\' c = [c] := by
    intro c member
    rw [escapedInWord_of, plain c member]
    rfl
  rw [List.flatMap_congr each]
  exact List.flatMap_singleton' text

theorem parseU32_keptEscapes (text : List Char) : parseU32 (keptEscapes text) = parseU32 text := by
  by_cases digits : ∀ c ∈ text, c.isDigit = true
  · have plain : ∀ c ∈ text, isPatternChar c = false := by
      intro c member
      rw [← Bool.not_eq_true]
      intro pattern
      have digit := digits c member
      rw [isPatternChar, Bool.or_eq_true, Bool.or_eq_true, beq_iff_eq, beq_iff_eq, beq_iff_eq]
        at pattern
      rcases pattern with (rfl | rfl) | rfl <;> cases digit
    rw [keptEscapes_eq plain]
  · push Not at digits
    obtain ⟨c, member, other⟩ := digits
    have none {word : List Char} (inside : c ∈ word) : parseU32 word = none := by
      rw [parseU32, if_pos]
      refine Or.inr fun all => other (List.all_eq_true.mp all c inside)
    have kept : c ∈ keptEscapes text := by
      refine List.mem_flatMap.mpr ⟨c, member, ?_⟩
      rw [escapedInWord_of]
      split
      · exact List.mem_cons_of_mem _ List.mem_cons_self
      · exact List.mem_cons_self
    rw [none member, none kept]

theorem lexDupTarget_redirects {start source prefixLen : Nat} {output : Bool}
    {before after : Cursor Char} {token : Token Char}
    (read : lexDupTarget start source output prefixLen before = .ok (token, after)) :
    token.kind.isRedirection = true := by
  rw [lexDupTarget] at read
  dsimp only at read
  split at read
  · cases read
    rfl
  · split at read
    · cases read
    · split at read <;> cases read
      rfl

theorem lexHeredoc_redirects {start prefixLen : Nat} {fd : Option Nat} {stripTabs : Bool}
    {before after : Cursor Char} {token : Token Char}
    (read : lexHeredoc start fd stripTabs prefixLen before = .ok (token, after)) :
    token.kind.isRedirection = true := by
  obtain ⟨⟨⟨delimiter, quoted⟩, cursor⟩, -, returned⟩ := bind_eq_ok.mp read
  dsimp only at returned
  split at returned <;> cases returned
  rfl

theorem lexRedirectOut_redirects {start : Nat} {fd : Option Nat} {before after : Cursor Char}
    {token : Token Char} (read : lexRedirectOut start fd before = .ok (token, after)) :
    token.kind.isRedirection = true := by
  rw [lexRedirectOut] at read
  split at read
  · cases read
    rfl
  · split at read
    · exact lexDupTarget_redirects read
    · cases read
      rfl

theorem lexRedirectIn_redirects {start : Nat} {fd : Option Nat} {before after : Cursor Char}
    {token : Token Char} (read : lexRedirectIn start fd before = .ok (token, after)) :
    token.kind.isRedirection = true := by
  rw [lexRedirectIn] at read
  dsimp only at read
  split at read
  · split at read
    · cases read
      rfl
    · split at read
      · exact lexHeredoc_redirects read
      · exact lexHeredoc_redirects read
  · split at read
    · exact lexDupTarget_redirects read
    · cases read
      rfl

section Lexing

variable {noPending : Bool} {pos : Nat} {text behind : List Char}

theorem nextToken_escaped (nonempty : text ≠ []) (lines : OneLine text) :
    nextToken noPending ⟨pos, escaped text ++ behind⟩ =
      (lexWord ⟨pos, escaped text ++ behind⟩).map some := by
  cases text with
  | nil => exact (nonempty rfl).elim
  | cons c text =>
      exact nextToken_skipped (skipWhitespace_escaped (lines c List.mem_cons_self))

theorem lexWord_escaped (lines : OneLine text) (ends : EndsWord behind)
    (free : ¬NumbersRedirection text behind) :
    lexWord ⟨pos, escaped text ++ behind⟩ =
      .ok (⟨.word (keptEscapes text), pos, pos + width (escaped text)⟩,
        ⟨pos + width (escaped text), behind⟩) := by
  have same : (keptEscapes text).map Letter.char = keptEscapes text := List.map_id _
  rw [lexWord, readWord_escapedText lines ends]
  dsimp only
  rw [List.nil_append, same, parseU32_keptEscapes]
  rcases number : parseU32 text with _ | fd
  · rfl
  · have noOut : (⟨pos + width (escaped text), behind⟩ : Cursor Char).peekChar ≠ some '>' := by
      intro peeked
      refine free ⟨by rw [number]; rfl, Or.inr ?_⟩
      cases behind <;> exact peeked
    have noIn : (⟨pos + width (escaped text), behind⟩ : Cursor Char).peekChar ≠ some '<' := by
      intro peeked
      refine free ⟨by rw [number]; rfl, Or.inl ?_⟩
      cases behind <;> exact peeked
    dsimp only
    rw [if_neg noOut, if_neg noIn]

end Lexing

/-! ## What the expander makes of a word -/

/-- The characters of unquoted text for the expander, and which may act in a pattern. -/
def literalMarks (text : List Char) : List (Char × Bool) := literalBytes (.literal text true true)

/-- Unquoted text without the escapes that the expander takes away. -/
def unescaped (text : List Char) : List Char := (processGlobEscapes text).map (·.1)

theorem literalMarks_text (text : List Char) :
    (literalMarks text).map (·.1) = byteChars (unescaped text) :=
  literalBytes_text (.literal text true true)

/-- The source stands for the text, and none of it acts in a pattern. -/
def StandsFor (source text : List Char) : Prop :=
  (literalMarks source).map (·.1) = text ∧ actsInPattern (literalMarks source) = false

theorem splitFields_literal (source ifs : List Char) :
    splitFieldsWithEligibility [.literal source true true] ifs =
      if ifs = [] ∧ literalMarks source = [] then [] else [.of (literalMarks source)] := by
  have pushed : pushLiteral .new (.literal source true true) = .of (literalMarks source) :=
    pushLiteral_of [] (.literal source true true)
  rw [splitFieldsWithEligibility, List.foldl_cons, List.foldl_nil, List.foldl_cons, List.foldl_nil]
  cases ifs with
  | nil =>
      dsimp only [List.isEmpty_nil]
      rw [if_pos rfl, pushed]
      rcases literalMarks source with _ | ⟨letter, marks⟩
      · rfl
      · have some : ¬(([] : List Char) = [] ∧ letter :: marks = []) :=
          fun both => List.cons_ne_nil _ _ both.2
        rw [if_neg some]
        exact if_neg Bool.false_ne_true
  | cons c ifs =>
      have collected : Splitting.addPart (c :: ifs) .new (.literal source true true) =
          ⟨[], pushLiteral .new (.literal source true true), true⟩ := rfl
      rw [if_neg (by exact Bool.false_ne_true), if_neg fun both => List.cons_ne_nil _ _ both.1,
        collected, pushed, Splitting.complete, if_pos]
      · rfl
      · exact Bool.or_true _

section Words

variable {ε : Type} {around : Surroundings ε} {context : Context} {span : Span}

theorem expand_unquoted (pathnames : Pathnames ε) (word : List Char) :
    expandWordSplitGlob around pathnames context ⟨[.literal word .unquoted], span⟩ =
      ((splitFieldsWithEligibility [.literal (expandTilde around word) true true]
        (getIfs context)).mapM (expandField pathnames)).map fun results =>
          (results.flatten, context) := by
  have text : literalText around true word .unquoted = expandTilde around word := rfl
  rw [← text]
  rfl

/-- A word is expanded to a text with all patterns where its characters are those of the text. -/
theorem expand_iff {word text : List Char} (nonempty : text ≠ []) :
    (∀ pathnames : Pathnames ε,
      expandWordSplitGlob around pathnames context ⟨[.literal word .unquoted], span⟩ =
        .ok ([text], context)) ↔ StandsFor (expandTilde around word) text := by
  have single (pathnames : Pathnames ε) (field : List (Char × Bool)) :
      [GlobEligibility.of field].mapM (expandField pathnames) =
        (expandField pathnames (.of field)).map ([·]) := by
    rw [List.mapM_cons]
    rcases expandField pathnames (.of field) with error | paths
    · rfl
    · rfl
  constructor
  · intro all
    have nowhere := all fun _ => .ok []
    rw [expand_unquoted, splitFields_literal] at nowhere
    split at nowhere
    · cases nowhere
    · rw [single, expandField_of] at nowhere
      split at nowhere
      · cases nowhere
      · rename_i quiet
        have same := congrArg Prod.fst (Except.ok.inj nowhere)
        exact ⟨List.head_eq_of_cons_eq same, Bool.eq_false_iff.mpr quiet⟩
  · rintro ⟨same, quiet⟩ pathnames
    have marked : literalMarks (expandTilde around word) ≠ [] := by
      intro none
      rw [none] at same
      exact nonempty same.symm
    rw [expand_unquoted, splitFields_literal, if_neg fun both => marked both.2, single,
      expandField_of, quiet, if_neg Bool.false_ne_true, same]
    rfl

end Words

/-! ## Escapes that are taken away -/

theorem processGlobEscapes_escape {c : Char} {rest : List Char}
    (escapable : isPatternChar c ∨ c = '\\') :
    processGlobEscapes ('\\' :: c :: rest) = (c, false) :: processGlobEscapes rest := by
  rw [processGlobEscapes, if_pos ⟨rfl, escapable⟩]

theorem processGlobEscapes_other {c : Char} {rest : List Char} (plain : c ≠ '\\') :
    processGlobEscapes (c :: rest) = (c, true) :: processGlobEscapes rest := by
  cases rest with
  | nil => rfl
  | cons next rest => rw [processGlobEscapes, if_neg fun both => plain both.1]

theorem processGlobEscapes_backslash {c : Char} {rest : List Char}
    (plain : ¬(isPatternChar c ∨ c = '\\')) :
    processGlobEscapes ('\\' :: c :: rest) = ('\\', true) :: processGlobEscapes (c :: rest) := by
  rw [processGlobEscapes, if_neg fun both => plain both.2]

/-- Nothing that could be escaped begins a text. -/
theorem processGlobEscapes_append {first second : List Char}
    (plain : ∀ c ∈ second.head?, ¬(isPatternChar c ∨ c = '\\')) :
    processGlobEscapes (first ++ second) =
      processGlobEscapes first ++ processGlobEscapes second := by
  fun_induction processGlobEscapes first with
  | case1 => rfl
  | case2 c =>
      cases second with
      | nil => rfl
      | cons next second =>
          change processGlobEscapes (c :: next :: second) = _
          rw [processGlobEscapes, if_neg fun both => plain next rfl both.2]
          rfl
  | case3 c next rest escapes ih =>
      change processGlobEscapes (c :: next :: (rest ++ second)) = _
      rw [processGlobEscapes, if_pos escapes, ih]
      rfl
  | case4 c next rest plain ih =>
      change processGlobEscapes (c :: next :: (rest ++ second)) = _
      rw [processGlobEscapes, if_neg plain]
      exact congrArg ((c, true) :: ·) ih

def keptMarks : List Char → List (Char × Bool)
  | [] => []
  | [c] => [(c, !isPatternChar c)]
  | c :: next :: rest =>
      if c = '\\' then
        if next = '\\' then ('\\', false) :: keptMarks rest
        else ('\\', !isPatternChar next) :: (next, true) :: keptMarks rest
      else (c, !isPatternChar c) :: keptMarks (next :: rest)

theorem processGlobEscapes_kept (text : List Char) :
    processGlobEscapes (keptEscapes text) = keptMarks text := by
  have backslash : escapedInWord '\\' '\\' = ['\\'] := rfl
  fun_induction keptMarks text with
  | case1 => rfl
  | case2 c =>
      rw [keptEscapes_cons, escapedInWord_of]
      by_cases pattern : isPatternChar c = true
      · rw [if_pos pattern, pattern]
        exact processGlobEscapes_escape (Or.inl pattern)
      · rw [if_neg pattern, Bool.eq_false_iff.mpr pattern]
        rfl
  | case3 rest ih =>
      rw [keptEscapes_cons, keptEscapes_cons, backslash]
      change processGlobEscapes ('\\' :: '\\' :: keptEscapes rest) = _
      rw [processGlobEscapes_escape (Or.inr rfl), ih]
  | case4 next rest notBackslash ih =>
      rw [keptEscapes_cons, keptEscapes_cons, backslash, escapedInWord_of]
      by_cases pattern : isPatternChar next = true
      · rw [if_pos pattern, pattern]
        change processGlobEscapes ('\\' :: '\\' :: next :: keptEscapes rest) = _
        rw [processGlobEscapes_escape (Or.inr rfl), processGlobEscapes_other notBackslash, ih]
        rfl
      · rw [if_neg pattern, Bool.eq_false_iff.mpr pattern]
        change processGlobEscapes ('\\' :: next :: keptEscapes rest) = _
        rw [processGlobEscapes_backslash (not_or.mpr ⟨pattern, notBackslash⟩),
          processGlobEscapes_other notBackslash, ih]
        rfl
  | case5 c next rest notBackslash ih =>
      rw [keptEscapes_cons, escapedInWord_of]
      by_cases pattern : isPatternChar c = true
      · rw [if_pos pattern, pattern]
        change processGlobEscapes ('\\' :: c :: keptEscapes (next :: rest)) = _
        rw [processGlobEscapes_escape (Or.inl pattern), ih]
        rfl
      · rw [if_neg pattern, Bool.eq_false_iff.mpr pattern]
        change processGlobEscapes (c :: keptEscapes (next :: rest)) = _
        rw [processGlobEscapes_other notBackslash, ih]
        rfl

theorem unescaped_kept (text : List Char) :
    unescaped (keptEscapes text) = (keptMarks text).map (·.1) := by
  rw [unescaped, processGlobEscapes_kept]

/-! ## Texts that are kept -/

def Backslashed (x : Char) (text : List Char) : Prop := ['\\', x] <:+: text

theorem backslashed_cons {x c next : Char} {rest : List Char} :
    Backslashed x (c :: next :: rest) ↔
      c = '\\' ∧ next = x ∨ Backslashed x (next :: rest) := by
  rw [Backslashed, List.infix_cons_iff, List.cons_prefix_cons, List.cons_prefix_cons]
  simp only [List.nil_prefix, and_true, eq_comm]
  rfl

theorem backslashed_single {x c : Char} : ¬Backslashed x [c] := by
  intro inside
  have short := inside.length_le
  exact absurd short (by simp)

theorem backslashed_skip {x c : Char} {rest : List Char} (plain : c ≠ '\\') :
    Backslashed x (c :: rest) ↔ Backslashed x rest := by
  cases rest with
  | nil => exact iff_of_false backslashed_single fun inside => by simpa using inside.length_le
  | cons next rest =>
      rw [backslashed_cons]
      exact or_iff_right fun both => plain both.1

/-- All of the text is ASCII, and no two backslashes stand in a row. -/
structure Intact (text : List Char) : Prop where
  ascii : ∀ c ∈ text, isAscii c = true
  single : ¬Backslashed '\\' text

/-- No backslash stands before a glob metacharacter, either. -/
structure Plain (text : List Char) : Prop extends Intact text where
  asleep : ∀ x, isPatternChar x = true → ¬Backslashed x text

theorem keptMarks_text {text : List Char} (single : ¬Backslashed '\\' text) :
    (keptMarks text).map (·.1) = text := by
  fun_induction keptMarks text with
  | case1 => rfl
  | case2 c => rfl
  | case3 rest ih => exact (single (backslashed_cons.mpr (Or.inl ⟨rfl, rfl⟩))).elim
  | case4 next rest notBackslash ih =>
      have later : ¬Backslashed '\\' rest := fun inside =>
        single (backslashed_cons.mpr (Or.inr ((backslashed_skip notBackslash).mpr inside)))
      exact congrArg ('\\' :: next :: ·) (ih later)
  | case5 c next rest notBackslash ih =>
      exact congrArg (c :: ·) (ih fun inside => single ((backslashed_skip notBackslash).mpr inside))

/-- Backslashes in a row are lost. -/
theorem keptMarks_ascii (text : List Char) :
    ((keptMarks text).map (·.1)).countP isAscii ≤ text.countP isAscii ∧
      (Backslashed '\\' text →
        ((keptMarks text).map (·.1)).countP isAscii < text.countP isAscii) := by
  fun_induction keptMarks text with
  | case1 => exact ⟨Nat.le_refl _, fun inside => by simpa using inside.length_le⟩
  | case2 c => exact ⟨Nat.le_refl _, fun inside => (backslashed_single inside).elim⟩
  | case3 rest ih =>
      have ascii : isAscii '\\' = true := rfl
      simp only [List.map_cons, List.countP_cons, ascii, if_true]
      omega
  | case4 next rest notBackslash ih =>
      rw [backslashed_cons, or_iff_right fun both => notBackslash both.2,
        backslashed_skip notBackslash]
      simp only [List.map_cons, List.countP_cons]
      obtain ⟨shorter, lost⟩ := ih
      refine ⟨by omega, fun inside => ?_⟩
      have fewer := lost inside
      omega
  | case5 c next rest notBackslash ih =>
      rw [backslashed_skip notBackslash, List.map_cons, List.countP_cons,
        @List.countP_cons _ _ c (next :: rest)]
      dsimp only
      obtain ⟨shorter, lost⟩ := ih
      refine ⟨by omega, fun inside => ?_⟩
      have fewer := lost inside
      omega

theorem byteChars_filter (text : List Char) :
    (byteChars text).filter isAscii = text.filter isAscii := by
  induction text with
  | nil => rfl
  | cons c text ih =>
      rw [byteChars_cons, List.filter_append, ih, List.filter_cons]
      by_cases ascii : isAscii c = true
      · have same : byteChars [c] = [c] :=
          byteChars_ascii fun other member => (List.mem_singleton.mp member) ▸ ascii
        rw [same, if_pos ascii, List.filter_cons_of_pos ascii]
        rfl
      · have none : (byteChars [c]).filter isAscii = [] := by
          refine List.filter_eq_nil_iff.mpr ?_
          intro other member small
          obtain ⟨byte, inside, rfl⟩ := List.mem_map.mp member
          rw [bytes, List.flatMap_singleton] at inside
          have large := (utf8_other (Bool.eq_false_iff.mpr ascii)).2 byte inside
          have below : (Char.ofNat byte.toNat).toNat < 128 := of_decide_eq_true small
          rw [toNat_ofByte] at below
          omega
        rw [none, if_neg ascii]
        rfl

theorem ascii_of_byteChars {text : List Char} (same : byteChars text = text) :
    ∀ c ∈ text, isAscii c = true :=
  (length_byteChars text).2 (by rw [same])

/-- The escapes of a text are taken away without loss where it is intact. -/
theorem byteChars_kept_iff (text : List Char) :
    byteChars (unescaped (keptEscapes text)) = text ↔ Intact text := by
  rw [unescaped_kept]
  constructor
  · intro same
    have single : ¬Backslashed '\\' text := by
      intro inside
      have fewer := (keptMarks_ascii text).2 inside
      rw [List.countP_eq_length_filter, List.countP_eq_length_filter, ← byteChars_filter, same]
        at fewer
      exact Nat.lt_irrefl _ fewer
    rw [keptMarks_text single] at same
    exact ⟨ascii_of_byteChars same, single⟩
  · intro intact
    rw [keptMarks_text intact.single, byteChars_ascii intact.ascii]

theorem keptMarks_acts {text : List Char} (single : ¬Backslashed '\\' text) :
    actsInPattern (keptMarks text) = true ↔ ∃ x, isPatternChar x = true ∧ Backslashed x text := by
  have never (c : Char) : (!isPatternChar c && isPatternChar c) = false := Bool.not_and_self _
  fun_induction keptMarks text with
  | case1 =>
      refine iff_of_false Bool.false_ne_true ?_
      rintro ⟨x, -, inside⟩
      simpa using inside.length_le
  | case2 c =>
      rw [actsInPattern, List.any_cons, never]
      refine iff_of_false Bool.false_ne_true ?_
      rintro ⟨x, -, inside⟩
      exact backslashed_single inside
  | case3 rest ih => exact (single (backslashed_cons.mpr (Or.inl ⟨rfl, rfl⟩))).elim
  | case4 next rest notBackslash ih =>
      have later : ¬Backslashed '\\' rest := fun inside =>
        single (backslashed_cons.mpr (Or.inr ((backslashed_skip notBackslash).mpr inside)))
      have quiet : (!isPatternChar next && isPatternChar '\\') = false := Bool.and_false _
      rw [actsInPattern, List.any_cons, List.any_cons, quiet, Bool.false_or, Bool.true_and,
        Bool.or_eq_true]
      change _ ∨ actsInPattern (keptMarks rest) = true ↔ _
      refine (or_congr Iff.rfl (ih later)).trans ?_
      constructor
      · rintro (pattern | ⟨x, pattern, inside⟩)
        · exact ⟨next, pattern, backslashed_cons.mpr (Or.inl ⟨rfl, rfl⟩)⟩
        · exact ⟨x, pattern,
            backslashed_cons.mpr (Or.inr ((backslashed_skip notBackslash).mpr inside))⟩
      · rintro ⟨x, pattern, inside⟩
        rcases backslashed_cons.mp inside with ⟨-, rfl⟩ | further
        · exact Or.inl pattern
        · exact Or.inr ⟨x, pattern, (backslashed_skip notBackslash).mp further⟩
  | case5 c next rest notBackslash ih =>
      have later := ih fun inside => single ((backslashed_skip notBackslash).mpr inside)
      rw [actsInPattern, List.any_cons, never, Bool.false_or]
      change actsInPattern (keptMarks (next :: rest)) = true ↔ _
      refine later.trans ?_
      refine exists_congr fun x => and_congr_right fun _ => ?_
      exact (backslashed_skip notBackslash).symm

theorem literalMarks_kept {text : List Char} (intact : Intact text) :
    literalMarks (keptEscapes text) = keptMarks text := by
  have same : unescaped (keptEscapes text) = text := by
    rw [unescaped_kept, keptMarks_text intact.single]
  have ascii : ∀ c ∈ unescaped (keptEscapes text), isAscii c = true := by
    rw [same]
    exact intact.ascii
  have field : ExpandedField.literal (keptEscapes text) true true =
      ⟨unescaped (keptEscapes text), (processGlobEscapes (keptEscapes text)).map (·.2), false⟩ := rfl
  rw [literalMarks, field, literalBytes_ascii ascii, unescaped, List.zip_map', processGlobEscapes_kept]
  · exact List.map_id _
  · exact Nat.le_of_eq ((List.length_map _).trans (List.length_map _).symm)

theorem standsFor_kept_iff (text : List Char) :
    StandsFor (keptEscapes text) text ↔ Plain text := by
  rw [StandsFor, literalMarks_text, byteChars_kept_iff]
  have asleep (intact : Intact text) : actsInPattern (literalMarks (keptEscapes text)) = false ↔
      ∀ x, isPatternChar x = true → ¬Backslashed x text := by
    rw [literalMarks_kept intact, ← Bool.not_eq_true, keptMarks_acts intact.single]
    push Not
    exact Iff.rfl
  constructor
  · rintro ⟨intact, quiet⟩
    exact ⟨intact, (asleep intact).mp quiet⟩
  · intro plain
    exact ⟨plain.toIntact, (asleep plain.toIntact).mpr plain.asleep⟩

/-! ## Tildes -/

def tildeHome {ε : Type} (around : Surroundings ε) : List Char → Option (List Char)
  | '~' :: rest =>
      let user := keptEscapes (rest.takeWhile (· != '/'))
      if user = [] then around.homeDir else getUserHome around user
  | _ => none

theorem keptEscapes_span (text : List Char) :
    (keptEscapes text).takeWhile (· != '/') = keptEscapes (text.takeWhile (· != '/')) ∧
      (keptEscapes text).dropWhile (· != '/') = keptEscapes (text.dropWhile (· != '/')) := by
  induction text with
  | nil => exact ⟨rfl, rfl⟩
  | cons c text ih =>
      rw [keptEscapes_cons]
      by_cases slash : c = '/'
      · subst slash
        exact ⟨rfl, rfl⟩
      · obtain ⟨taken, dropped⟩ := ih
        rw [escapedInWord_of]
        split <;> simp [keptEscapes_cons, escapedInWord_of, *]

/-- A tilde that is escaped is expanded all the same. -/
theorem expandTilde_kept {ε : Type} (around : Surroundings ε) (text : List Char) :
    expandTilde around (keptEscapes text) =
      (tildeHome around text).elim (keptEscapes text)
        (· ++ keptEscapes (text.dropWhile (· != '/'))) := by
  rcases text with _ | ⟨c, text⟩
  · rfl
  · by_cases tilde : c = '~'
    · subst tilde
      have kept : keptEscapes ('~' :: text) = '~' :: keptEscapes text := rfl
      have suffix : ('~' :: text).dropWhile (· != '/') = text.dropWhile (· != '/') := rfl
      rw [kept, suffix, expandTilde, tildeHome, (keptEscapes_span text).1,
        (keptEscapes_span text).2]
      rcases (if keptEscapes (text.takeWhile (· != '/')) = [] then around.homeDir
        else getUserHome around (keptEscapes (text.takeWhile (· != '/')))) with _ | home
      · rfl
      · rfl
    · have noHome : tildeHome around (c :: text) = none := by
        rw [tildeHome]
        rintro rest ⟨⟩
        exact tilde rfl
      rw [noHome, expandTilde.eq_def]
      split
      · rename_i rest stands
        rw [keptEscapes_cons, escapedInWord_of] at stands
        split at stands
        · cases stands
        · cases stands
          exact (tilde rfl).elim
      · rfl

def isSure (c : Char) : Bool := isAscii c && c != '\\'

theorem keptMarks_sure (text : List Char) :
    ((keptMarks text).map (·.1)).filter isSure = text.filter isSure := by
  fun_induction keptMarks text with
  | case1 => rfl
  | case2 c => rfl
  | case3 rest ih => exact ih
  | case4 next rest notBackslash ih =>
      have unsure : isSure '\\' = false := rfl
      simp only [List.map_cons, List.filter_cons, unsure, ih]
  | case5 c next rest notBackslash ih =>
      simp only [List.map_cons, List.filter_cons, ih]

theorem byteChars_sure (text : List Char) :
    (byteChars text).filter isSure = text.filter isSure := by
  have both : isSure = fun c => (c != '\\') && isAscii c := funext fun c => Bool.and_comm _ _
  rw [both, ← List.filter_filter, ← List.filter_filter, byteChars_filter]

theorem byteChars_append (first second : List Char) :
    byteChars (first ++ second) = byteChars first ++ byteChars second := by
  rw [byteChars, byteChars, byteChars, ← List.map_append, bytes, bytes, bytes, ← List.flatMap_append]

/-- What is left from the first slash on is nothing, or begins with the slash. -/
theorem suffix_shape (text : List Char) :
    text.dropWhile (· != '/') = [] ∨ ∃ rest, text.dropWhile (· != '/') = '/' :: rest := by
  rcases suffix : text.dropWhile (· != '/') with _ | ⟨c, rest⟩
  · exact Or.inl rfl
  · have outside := List.head?_dropWhile_not (· != '/') text
    rw [suffix] at outside
    have slash : c = '/' := by simpa using outside
    subst slash
    exact Or.inr ⟨rest, rfl⟩

theorem unescaped_home (home text : List Char) :
    unescaped (home ++ keptEscapes (text.dropWhile (· != '/'))) =
      unescaped home ++ unescaped (keptEscapes (text.dropWhile (· != '/'))) := by
  rw [unescaped, processGlobEscapes_append, List.map_append]
  · rfl
  · rcases suffix_shape text with none | ⟨rest, slash⟩
    · rw [none]
      rintro c ⟨⟩
    · rw [slash]
      rintro c ⟨⟩
      decide

/-- What the suffix reads as begins with the slash, too. -/
theorem takeWhile_home {front : List Char} (inside : '/' ∉ front) (text : List Char) :
    (front ++ byteChars (unescaped (keptEscapes (text.dropWhile (· != '/'))))).takeWhile
      (· != '/') = front := by
  have all : ∀ c ∈ front, (c != '/') = true := by
    intro c member
    refine bne_iff_ne.mpr ?_
    rintro rfl
    exact inside member
  rw [List.takeWhile_append_of_pos all]
  rcases suffix_shape text with none | ⟨rest, slash⟩
  · rw [none]
    exact List.append_nil front
  · have kept : keptEscapes ('/' :: rest) = '/' :: keptEscapes rest := rfl
    have single : byteChars ['/'] = ['/'] := byteChars_ascii (by simp [isAscii])
    rw [slash, kept, unescaped, processGlobEscapes_other (by decide), List.map_cons,
      byteChars_cons, single]
    exact List.append_nil front

/-- A home directory with a suffix stands for the text where it reads as the prefix. -/
theorem home_iff (home text : List Char) :
    byteChars (unescaped (home ++ keptEscapes (text.dropWhile (· != '/')))) = text ↔
      byteChars (unescaped home) = text.takeWhile (· != '/') ∧
        Intact (text.dropWhile (· != '/')) := by
  rw [unescaped_home, byteChars_append]
  have whole : text.takeWhile (· != '/') ++ text.dropWhile (· != '/') = text :=
    List.takeWhile_append_dropWhile
  constructor
  · intro same
    -- What is sure in the suffix is kept, so the rest of the text is that of the home directory.
    have sure := congrArg (List.filter isSure) (same.trans whole.symm)
    rw [List.filter_append, List.filter_append, byteChars_sure (unescaped (keptEscapes _)),
      unescaped_kept, keptMarks_sure, List.append_cancel_right_eq] at sure
    have inside : '/' ∉ byteChars (unescaped home) := by
      intro member
      have kept : '/' ∈ (text.takeWhile (· != '/')).filter isSure :=
        sure ▸ List.mem_filter.mpr ⟨member, rfl⟩
      have before := List.all_eq_true.mp List.all_takeWhile _ (List.mem_of_mem_filter kept)
      exact absurd before (by decide)
    have front : byteChars (unescaped home) = text.takeWhile (· != '/') := by
      rw [← takeWhile_home inside text, same]
    refine ⟨front, (byteChars_kept_iff _).mp ?_⟩
    have rest := same.trans whole.symm
    rw [front] at rest
    exact List.append_cancel_left rest
  · rintro ⟨front, intact⟩
    rw [front, (byteChars_kept_iff _).mpr intact, whole]

/-! ## What is kept -/

section Main

variable {ε : Type} (around : Surroundings ε)

/-- The text is intact, and if a home directory is found for its tilde, that reads as the
prefix. -/
def Survives (text : List Char) : Prop :=
  match tildeHome around text with
  | none => Plain text
  | some home =>
      byteChars (unescaped home) = text.takeWhile (· != '/') ∧
        Intact (text.dropWhile (· != '/')) ∧
        actsInPattern (literalMarks (home ++ keptEscapes (text.dropWhile (· != '/')))) = false

theorem standsFor_iff (text : List Char) :
    StandsFor (expandTilde around (keptEscapes text)) text ↔ Survives around text := by
  rw [expandTilde_kept, Survives]
  rcases tildeHome around text with _ | home
  · exact standsFor_kept_iff text
  · change StandsFor (home ++ _) text ↔ _
    rw [StandsFor, literalMarks_text, home_iff, and_assoc]

/-- The escaped text is one word, and expanded to the text itself with all patterns. -/
def EscapesKept (noPending : Bool) (pos : Nat) (context : Context) (text behind : List Char) :
    Prop :=
  ∃ word stop,
    nextToken noPending ⟨pos, escaped text ++ behind⟩ =
      .ok (some (⟨.word word, pos, stop⟩, ⟨stop, behind⟩)) ∧
    ∀ pathnames : Pathnames ε,
      expandWordSplitGlob around pathnames context ⟨[.literal word .unquoted], pos, stop⟩ =
        .ok ([text], context)

variable {around} {noPending : Bool} {pos : Nat} {context : Context} {text behind : List Char}

theorem lexWord_numbered (lines : OneLine text) (ends : EndsWord behind)
    (numbers : NumbersRedirection text behind) {token : Token Char} {after : Cursor Char}
    (read : lexWord ⟨pos, escaped text ++ behind⟩ = .ok (token, after)) :
    token.kind.isRedirection = true := by
  have same : (keptEscapes text).map Letter.char = keptEscapes text := List.map_id _
  obtain ⟨fd, number⟩ := Option.isSome_iff_exists.mp numbers.1
  have peeked : (⟨pos + width (escaped text), behind⟩ : Cursor Char).peekChar = behind.head? := by
    cases behind <;> rfl
  rw [lexWord, readWord_escapedText lines ends] at read
  dsimp only at read
  rw [List.nil_append, same, parseU32_keptEscapes, number] at read
  dsimp only at read
  rw [peeked] at read
  rcases numbers.2 with input | output
  · rw [input, if_neg (by decide), if_pos rfl] at read
    exact lexRedirectIn_redirects read
  · rw [output, if_pos rfl] at read
    exact lexRedirectOut_redirects read

/-- The word that the lexer makes is the only one. -/
theorem nextToken_escaped_iff (nonempty : text ≠ []) (lines : OneLine text)
    (ends : EndsWord behind) {word : List Char} {stop : Nat} :
    nextToken noPending ⟨pos, escaped text ++ behind⟩ =
        .ok (some (⟨.word word, pos, stop⟩, ⟨stop, behind⟩)) ↔
      ¬NumbersRedirection text behind ∧ word = keptEscapes text ∧
        stop = pos + width (escaped text) := by
  rw [nextToken_escaped nonempty lines]
  by_cases numbers : NumbersRedirection text behind
  · refine iff_of_false ?_ fun both => both.1 numbers
    intro read
    rcases lexed : lexWord ⟨pos, escaped text ++ behind⟩ with error | ⟨token, after⟩
    · rw [lexed] at read
      cases read
    · rw [lexed] at read
      cases read
      cases lexWord_numbered lines ends numbers lexed
  · rw [lexWord_escaped lines ends numbers]
    constructor
    · intro read
      cases read
      exact ⟨numbers, rfl, rfl⟩
    · rintro ⟨-, rfl, rfl⟩
      rfl

theorem EscapesKept.standsFor (kept : EscapesKept around noPending pos context text behind)
    (nonempty : text ≠ []) (lines : OneLine text) (ends : EndsWord behind) :
    ¬NumbersRedirection text behind ∧ StandsFor (expandTilde around (keptEscapes text)) text := by
  obtain ⟨word, stop, read, expanded⟩ := kept
  obtain ⟨free, rfl, rfl⟩ := (nextToken_escaped_iff nonempty lines ends).mp read
  exact ⟨free, (expand_iff nonempty).mp expanded⟩

/-- An escaped text is kept exactly where it is a word of its own and survives. -/
theorem escapesKept_iff (lines : OneLine text) (ends : EndsWord behind) :
    EscapesKept around noPending pos context text behind ↔
      text ≠ [] ∧ ¬NumbersRedirection text behind ∧ Survives around text := by
  rw [← standsFor_iff]
  by_cases empty : text = []
  · subst empty
    refine iff_of_false ?_ fun all => all.1 rfl
    rintro ⟨word, stop, read, -⟩
    exact Nat.lt_irrefl _ (nextToken_advances read).shorter
  · constructor
    · exact fun kept => ⟨empty, kept.standsFor empty lines ends⟩
    · rintro ⟨-, free, stands⟩
      exact ⟨keptEscapes text, _, (nextToken_escaped_iff empty lines ends).mpr ⟨free, rfl, rfl⟩,
        (expand_iff empty).mpr stands⟩

end Main

/-- In `\a\*\ \b` everything is kept. -/
theorem escapesKept_glob : EscapesKept bareSurroundings true 5 blankContext "a* b".toList [' '] := by
  refine (escapesKept_iff ?_ ?_).mpr ⟨by decide, fun numbers => absurd numbers.1 (by decide),
    (standsFor_iff _ _).mp ⟨by decide +kernel, by decide +kernel⟩⟩
  · simp [OneLine]
  · rintro c ⟨⟩
    rfl

/-- Of two escaped backslashes one is lost, an asterisk behind one is a pattern, and a
character that is not ASCII becomes several. -/
theorem escapes_not_kept :
    ¬EscapesKept bareSurroundings true 5 blankContext ['\\', '\\'] [] ∧
      ¬EscapesKept bareSurroundings true 5 blankContext ['\\', '*'] [] ∧
      ¬EscapesKept bareSurroundings true 5 blankContext ['é'] [] := by
  have ends : EndsWord [] := by rintro c ⟨⟩
  refine ⟨?_, ?_, ?_⟩ <;> intro kept <;>
    have stands := (kept.standsFor (List.cons_ne_nil _ _) (by simp [OneLine]) ends).2
  · exact absurd stands.1 (by decide +kernel)
  · exact absurd stands.2 (by decide +kernel)
  · exact absurd stands.1 (by decide +kernel)

end OddJobs.Shell
