import Mathlib.Data.List.Chain
import OddJobs.Shell.Nesting
import OddJobs.Shell.Text

/-!
# Readings of a reference

What the lexer reads as one reference outside quotes has one of a few forms.  The lexer of
double-quoted strings reads each of them as the same reference, but for a bare special variable.
-/

namespace OddJobs.Shell

open Library

/-! ## Extents -/

/-- How deep the text leaves an opening character open, or none where more are closed than
have been opened. -/
def nesting (opening closing : Char) (depth : Nat) : List Char → Option Nat
  | [] => some depth
  | c :: rest =>
      if c = opening then nesting opening closing (depth + 1) rest
      else if c = closing then
        if depth = 0 then none else nesting opening closing (depth - 1) rest
      else nesting opening closing depth rest

/-- Every closing character closes an opening one, and none is left open. -/
def Balanced (opening closing : Char) (text : List Char) : Prop :=
  nesting opening closing 0 text = some 0

instance (opening closing : Char) (text : List Char) : Decidable (Balanced opening closing text) :=
  inferInstanceAs (Decidable (_ = _))

/-- The text leaves no backslash open, and has no backtick without one. -/
def ticked : Bool → List Char → Bool
  | escaped, [] => !escaped
  | true, _ :: rest => ticked false rest
  | false, c :: rest => if c = '\\' then ticked true rest else c != '`' && ticked false rest

section Extents

variable {start depth pos : Nat} {after : Cursor Char} {text later : List Char}

theorem scanModifier_balanced {modifier : List Char}
    (balanced : nesting '\x7b' '\x7d' depth text = some 0) :
    scanModifier start (depth + 1) modifier pos (text ++ '\x7d' :: later) =
      .ok (modifier ++ text, ⟨pos + (text.map size).sum + 1, later⟩) := by
  induction text generalizing depth modifier pos with
  | nil =>
      cases balanced
      rw [List.append_nil]
      rfl
  | cons c text ih =>
      have step {depth : Nat} (balanced : nesting '\x7b' '\x7d' depth text = some 0) :
          scanModifier start (depth + 1) (modifier ++ [c]) (pos + size c)
              (text ++ '\x7d' :: later) =
            .ok (modifier ++ c :: text, ⟨pos + ((c :: text).map size).sum + 1, later⟩) := by
        rw [ih balanced, List.append_assoc, List.singleton_append, List.map_cons, List.sum_cons,
          Nat.add_assoc pos]
      rw [nesting] at balanced
      rw [List.cons_append, scanModifier]
      dsimp only [char_self]
      split at balanced
      · rename_i opens
        rw [if_pos opens]
        exact step balanced
      · rename_i notOpening
        rw [if_neg notOpening]
        split at balanced
        · rename_i closes
          rw [if_pos closes]
          split at balanced
          · cases balanced
          · rename_i inside
            rw [Nat.add_sub_cancel, if_neg inside]
            obtain ⟨depth, rfl⟩ := Nat.exists_eq_succ_of_ne_zero inside
            exact step balanced
        · rename_i notClosing
          rw [if_neg notClosing]
          exact step balanced

/-- A modifier is balanced. -/
theorem balanced_of_scanModifier {modifier found rest : List Char}
    (read : scanModifier start (depth + 1) modifier pos rest = .ok (found, after)) :
    ∃ text, rest = text ++ '\x7d' :: after.rest ∧ found = modifier ++ text ∧
      nesting '\x7b' '\x7d' depth text = some 0 := by
  induction rest generalizing depth modifier pos with
  | nil => cases read
  | cons c rest ih =>
      rw [scanModifier] at read
      dsimp only [char_self] at read
      split at read
      · rename_i opens
        obtain ⟨text, rfl, rfl, balanced⟩ := ih read
        refine ⟨c :: text, rfl, by simp, ?_⟩
        rw [nesting, if_pos opens, balanced]
      · rename_i notOpening
        split at read
        · rename_i closes
          rw [Nat.add_sub_cancel] at read
          split at read
          · rename_i outermost
            cases read
            refine ⟨[], congrArg (· :: rest) closes, (List.append_nil _).symm, ?_⟩
            rw [nesting, outermost]
          · rename_i inside
            obtain ⟨depth, rfl⟩ := Nat.exists_eq_succ_of_ne_zero inside
            obtain ⟨text, rfl, rfl, balanced⟩ := ih read
            refine ⟨c :: text, rfl, by simp, ?_⟩
            rw [nesting, if_neg notOpening, if_pos closes, if_neg (Nat.succ_ne_zero _)]
            exact balanced
        · rename_i notClosing
          obtain ⟨text, rfl, rfl, balanced⟩ := ih read
          refine ⟨c :: text, rfl, by simp, ?_⟩
          rw [nesting, if_neg notOpening, if_neg notClosing, balanced]

/-- In a modifier a text counts the braces as the lexer does. -/
theorem scanBracedVar_modifier {name modifier : List Char}
    (balanced : nesting '\x7b' '\x7d' depth text = some 0) :
    scanBracedVar (depth + 1) name (some modifier) (text ++ '\x7d' :: later) =
      (.bracedVar name (some (modifier ++ text)), later) := by
  induction text generalizing depth modifier with
  | nil =>
      cases balanced
      rw [List.append_nil]
      rfl
  | cons c text ih =>
      have step {depth : Nat} (balanced : nesting '\x7b' '\x7d' depth text = some 0) :
          scanBracedVar (depth + 1) name (some (modifier ++ [c])) (text ++ '\x7d' :: later) =
            (.bracedVar name (some (modifier ++ c :: text)), later) := by
        rw [ih balanced, List.append_assoc, List.singleton_append]
      rw [nesting] at balanced
      rw [List.cons_append, scanBracedVar]
      simp only [Option.map_some, Option.isSome_some, if_true]
      split at balanced
      · rename_i opens
        rw [if_neg (by rw [opens]; decide), if_pos opens]
        exact step balanced
      · rename_i notOpening
        split at balanced
        · rename_i closes
          rw [if_pos closes]
          split at balanced
          · cases balanced
          · rename_i inside
            rw [Nat.add_sub_cancel, if_neg inside]
            obtain ⟨depth, rfl⟩ := Nat.exists_eq_succ_of_ne_zero inside
            exact step balanced
        · rename_i notClosing
          rw [if_neg notClosing, if_neg notOpening]
          exact step balanced

theorem scanCommandSubst_balanced {content : List Char}
    (balanced : nesting '(' ')' depth text = some 0) :
    scanCommandSubst (depth + 1) content (text ++ ')' :: later) =
      (.substitution (content ++ text), later) := by
  induction text generalizing depth content with
  | nil =>
      cases balanced
      rw [List.append_nil]
      rfl
  | cons c text ih =>
      have step {depth : Nat} (balanced : nesting '(' ')' depth text = some 0) :
          scanCommandSubst (depth + 1) (content ++ [c]) (text ++ ')' :: later) =
            (.substitution (content ++ c :: text), later) := by
        rw [ih balanced, List.append_assoc, List.singleton_append]
      rw [nesting] at balanced
      rw [List.cons_append, scanCommandSubst]
      split at balanced
      · rename_i opens
        rw [if_pos opens]
        exact step balanced
      · rename_i notOpening
        rw [if_neg notOpening]
        split at balanced
        · rename_i closes
          rw [if_pos closes]
          split at balanced
          · cases balanced
          · rename_i inside
            rw [Nat.add_sub_cancel, if_neg inside]
            obtain ⟨depth, rfl⟩ := Nat.exists_eq_succ_of_ne_zero inside
            exact step balanced
        · rename_i notClosing
          rw [if_neg notClosing]
          exact step balanced

/-- A text counts every parenthesis, quoted or not. -/
theorem balanced_of_scanCommandSubst {content found rest : List Char}
    (read : scanCommandSubst (depth + 1) content rest = (.substitution found, later)) :
    ∃ text, rest = text ++ ')' :: later ∧ found = content ++ text ∧
      nesting '(' ')' depth text = some 0 := by
  induction rest generalizing depth content with
  | nil => cases read
  | cons c rest ih =>
      rw [scanCommandSubst] at read
      split at read
      · rename_i opens
        obtain ⟨text, rfl, rfl, balanced⟩ := ih read
        refine ⟨c :: text, rfl, by simp, ?_⟩
        rw [nesting, if_pos opens, balanced]
      · rename_i notOpening
        split at read
        · rename_i closes
          rw [Nat.add_sub_cancel] at read
          split at read
          · rename_i outermost
            cases read
            refine ⟨[], congrArg (· :: later) closes, (List.append_nil _).symm, ?_⟩
            rw [nesting, outermost]
          · rename_i inside
            obtain ⟨depth, rfl⟩ := Nat.exists_eq_succ_of_ne_zero inside
            obtain ⟨text, rfl, rfl, balanced⟩ := ih read
            refine ⟨c :: text, rfl, by simp, ?_⟩
            rw [nesting, if_neg notOpening, if_pos closes, if_neg (Nat.succ_ne_zero _)]
            exact balanced
        · rename_i notClosing
          obtain ⟨text, rfl, rfl, balanced⟩ := ih read
          refine ⟨c :: text, rfl, by simp, ?_⟩
          rw [nesting, if_neg notOpening, if_neg notClosing, balanced]

theorem readBacktickFrom_ticked {escaped : Bool} {content : List Char}
    (plain : ticked escaped text = true) :
    readBacktickFrom start escaped content pos (text ++ '`' :: later) =
      .ok (content ++ text, ⟨pos + (text.map size).sum + 1, later⟩) := by
  induction text generalizing escaped content pos with
  | nil =>
      cases escaped with
      | true => cases plain
      | false =>
          rw [List.append_nil]
          rfl
  | cons c text ih =>
      have step {escaped : Bool} (plain : ticked escaped text = true) :
          readBacktickFrom start escaped (content ++ [c]) (pos + size c) (text ++ '`' :: later) =
            .ok (content ++ c :: text, ⟨pos + ((c :: text).map size).sum + 1, later⟩) := by
        rw [ih plain, List.append_assoc, List.singleton_append, List.map_cons, List.sum_cons,
          Nat.add_assoc pos]
      cases escaped with
      | true => exact step plain
      | false =>
          rw [ticked] at plain
          rw [List.cons_append, readBacktickFrom]
          dsimp only [char_self]
          split at plain
          · rename_i backslash
            rw [if_pos backslash]
            exact step plain
          · rename_i other
            rw [Bool.and_eq_true, bne_iff_ne] at plain
            rw [if_neg other, if_neg plain.1]
            exact step plain.2

theorem ticked_of_readBacktickFrom {escaped : Bool} {content found rest : List Char}
    (read : readBacktickFrom start escaped content pos rest = .ok (found, after)) :
    ∃ text, rest = text ++ '`' :: after.rest ∧ found = content ++ text ∧
      ticked escaped text = true := by
  induction rest generalizing escaped content pos with
  | nil => cases escaped <;> cases read
  | cons c rest ih =>
      cases escaped with
      | true =>
          obtain ⟨text, rfl, rfl, plain⟩ := ih read
          exact ⟨c :: text, rfl, by simp, plain⟩
      | false =>
          rw [readBacktickFrom] at read
          dsimp only [char_self] at read
          split at read
          · rename_i backslash
            obtain ⟨text, rfl, rfl, plain⟩ := ih read
            refine ⟨c :: text, rfl, by simp, ?_⟩
            rw [ticked, if_pos backslash, plain]
          · rename_i other
            split at read
            · rename_i closes
              cases read
              exact ⟨[], congrArg (· :: rest) closes, (List.append_nil _).symm, rfl⟩
            · rename_i inside
              obtain ⟨text, rfl, rfl, plain⟩ := ih read
              refine ⟨c :: text, rfl, by simp, ?_⟩
              rw [ticked, if_neg other, plain, Bool.and_true]
              exact bne_iff_ne.mpr inside

/-- Characters that lose a backslash before them between backticks in a text. -/
def losesBackslash (c next : Char) : Bool :=
  c == '\\' && (next == '`' || next == '\\' || next == '$')

def unbackslashed : List Char → List Char
  | [] => []
  | [c] => [c]
  | c :: next :: rest =>
      if losesBackslash c next then next :: unbackslashed rest
      else c :: unbackslashed (next :: rest)

theorem scanBacktickSubst_close (content later : List Char) :
    scanBacktickSubst content ('`' :: later) = (.substitution content, later) := by
  cases later with
  | nil => rfl
  | cons next rest => rw [scanBacktickSubst, if_pos rfl]

/-- Between backticks a text drops the backslashes that the lexer keeps. -/
theorem scanBacktickSubst_ticked {content : List Char} (plain : ticked false text = true) :
    scanBacktickSubst content (text ++ '`' :: later) =
      (.substitution (content ++ unbackslashed text), later) := by
  fun_induction unbackslashed text generalizing content with
  | case1 =>
      rw [List.append_nil]
      exact scanBacktickSubst_close content later
  | case2 c =>
      rw [ticked] at plain
      split at plain
      · cases plain
      · rename_i other
        rw [Bool.and_eq_true, bne_iff_ne] at plain
        rw [List.cons_append, List.nil_append, scanBacktickSubst, if_neg plain.1,
          if_neg fun escapes => other escapes.1]
        exact scanBacktickSubst_close _ later
  | case3 c next rest loses ih =>
      obtain ⟨backslash, special⟩ := Bool.and_eq_true_iff.mp loses
      have is : c = '\\' := beq_iff_eq.mp backslash
      have escapes : next = '`' ∨ next = '\\' ∨ next = '$' := by simpa [or_assoc] using special
      rw [ticked, if_pos is] at plain
      rw [List.cons_append, List.cons_append, scanBacktickSubst, if_neg (by rw [is]; decide),
        if_pos ⟨is, escapes⟩, ih plain, List.append_assoc]
      rfl
  | case4 c next rest keeps ih =>
      have notEscaped : ¬(c = '\\' ∧ (next = '`' ∨ next = '\\' ∨ next = '$')) := by
        simpa [losesBackslash, or_assoc] using keeps
      have goesOn (other : c ≠ '`') (plain : ticked false (next :: rest) = true) :
          scanBacktickSubst content (c :: next :: rest ++ '`' :: later) =
            (.substitution (content ++ c :: unbackslashed (next :: rest)), later) := by
        have later := @ih (content ++ [c]) plain
        rw [List.append_assoc] at later
        rw [List.cons_append, List.cons_append, scanBacktickSubst, if_neg other,
          if_neg notEscaped]
        exact later
      rw [ticked] at plain
      split at plain
      · rename_i backslash
        refine goesOn (by rw [backslash]; decide) ?_
        obtain ⟨noTick, notSlash, -⟩ : next ≠ '`' ∧ next ≠ '\\' ∧ next ≠ '$' := by
          simpa [backslash] using notEscaped
        rw [ticked, if_neg notSlash, bne_iff_ne.mpr noTick, Bool.true_and]
        exact plain
      · rw [Bool.and_eq_true, bne_iff_ne] at plain
        exact goesOn plain.1 plain.2

theorem unbackslashed_length (text : List Char) : (unbackslashed text).length ≤ text.length := by
  fun_induction unbackslashed text with
  | case1 => exact Nat.le_refl _
  | case2 => exact Nat.le_refl _
  | case3 c next rest loses ih =>
      simp only [List.length_cons] at ih ⊢
      omega
  | case4 c next rest keeps ih =>
      simp only [List.length_cons] at ih ⊢
      omega

/-- Nothing is dropped where no backslash stands before a character that loses it. -/
theorem unbackslashed_eq_self_iff (text : List Char) :
    unbackslashed text = text ↔ text.IsChain fun c next => losesBackslash c next = false := by
  fun_induction unbackslashed text with
  | case1 => exact iff_of_true rfl List.IsChain.nil
  | case2 c => exact iff_of_true rfl (List.IsChain.singleton c)
  | case3 c next rest loses ih =>
      refine iff_of_false (fun same => ?_) fun chain => ?_
      · have counted := congrArg List.length same
        have shorter := unbackslashed_length rest
        simp only [List.length_cons] at counted
        omega
      · have keeps := (List.isChain_cons_cons.mp chain).1
        rw [loses] at keeps
        cases keeps
  | case4 c next rest keeps ih =>
      rw [List.isChain_cons_cons, List.cons_inj_right, ih]
      exact ⟨fun chain => ⟨Bool.eq_false_iff.mpr keeps, chain⟩, fun chain => chain.2⟩

end Extents

/-! ## References -/

def IsBracedName (name modifier : List Char) : Prop :=
  (∃ c, isSpecialVariable c = true ∧ name = [c]) ∨
    isValidVariableName name = true ∧ ∀ c ∈ modifier.head?, isValidVariableChar c = false

def modifierOf (modifier : List Char) : Option (List Char) :=
  if modifier = [] then none else some modifier

/-- The forms of a reference, with the tokens that the lexer reads. -/
inductive Reference : List Char → TokenKind Char → Prop
  | special (c : Char) (special : isSpecialVariable c = true) : Reference ['$', c] (.var [c] none)
  | name (name : List Char) (valid : isValidVariableName name = true) :
      Reference ('$' :: name) (.var name none)
  | braced (name modifier : List Char) (named : IsBracedName name modifier)
      (balanced : Balanced '\x7b' '\x7d' modifier) :
      Reference ('$' :: '\x7b' :: (name ++ (modifier ++ ['\x7d'])))
        (.var name (modifierOf modifier))
  | substitution (content : List Char) (closed : Closed content) :
      Reference ('$' :: '(' :: (content ++ [')'])) (.commandSubstitution content false)
  | backticks (content : List Char) (plain : ticked false content = true) :
      Reference ('`' :: (content ++ ['`'])) (.commandSubstitution content true)

def TokenKind.part : TokenKind Char → WordPart Char (List Char)
  | .var name modifier => .var name modifier
  | .commandSubstitution content backtick => .commandSubstitution content backtick
  | _ => .literal [] .double

theorem Reference.refers {text : List Char} {kind : TokenKind Char}
    (reference : Reference text kind) :
    (∃ name modifier, kind = .var name modifier) ∨
      ∃ content backtick, kind = .commandSubstitution content backtick := by
  cases reference with
  | special c => exact Or.inl ⟨[c], none, rfl⟩
  | name name => exact Or.inl ⟨name, none, rfl⟩
  | braced name modifier => exact Or.inl ⟨name, modifierOf modifier, rfl⟩
  | substitution content => exact Or.inr ⟨content, false, rfl⟩
  | backticks content => exact Or.inr ⟨content, true, rfl⟩

/-- The lexer reads the text, outside quotes, as one token that begins with `$` or a backtick. -/
structure ReadsAlone (text : List Char) (token : Token Char) : Prop where
  begins : text.head? = some '$' ∨ text.head? = some '`'
  read : ∃ stop, nextToken true ⟨0, text⟩ = .ok (some (token, ⟨stop, []⟩))

section Forms

variable {start pos stop : Nat} {later : List Char} {token : Token Char}

theorem braced_of_closeBracedVariable {name rest found : List Char}
    {modifier : Option (List Char)}
    (read : closeBracedVariable start name ⟨pos, rest⟩ = .ok ((found, modifier), ⟨stop, []⟩)) :
    found = name ∧ ∃ text, rest = text ++ ['\x7d'] ∧ modifier = modifierOf text ∧
      Balanced '\x7b' '\x7d' text := by
  rw [closeBracedVariable] at read
  dsimp only at read
  split at read
  · cases read
  · rename_i c rest
    split at read
    · rename_i closes
      cases read
      exact ⟨rfl, [], congrArg (· :: []) closes, rfl, rfl⟩
    · rename_i opens
      obtain ⟨⟨body, reached⟩, scanned, returned⟩ := bind_eq_ok.mp read
      cases returned
      obtain ⟨text, stands, is, balanced⟩ := @balanced_of_scanModifier _ 0 _ _ [] _ _ scanned
      refine ⟨rfl, text, stands, ?_, balanced⟩
      rw [modifierOf, if_neg, is, List.nil_append]
      rintro rfl
      exact opens (List.cons.inj stands).1

theorem isValidVariableChar_of_start {c : Char} (starts : isValidVariableStart c = true) :
    isValidVariableChar c = true := by
  rw [isValidVariableStart, Bool.or_eq_true] at starts
  rw [isValidVariableChar, Bool.or_eq_true]
  refine starts.imp_left fun alpha => ?_
  rw [Char.isAlphanum, alpha, Bool.true_or]

theorem isSpecialVariable_of_start {c : Char} (starts : isValidVariableStart c = true) :
    isSpecialVariable c = false := by
  refine Bool.eq_false_iff.mpr fun special => ?_
  have is : c = '?' ∨ c = '$' ∨ c = '#' ∨ c = '0' := by
    simpa [isSpecialVariable, or_assoc] using special
  rcases is with rfl | rfl | rfl | rfl <;> cases starts

/-- A name goes as far as its characters do. -/
theorem scanVariableName_of_start {c : Char} {rest name : List Char} {behind : Cursor Char}
    (starts : isValidVariableStart c = true)
    (scanned : scanVariableName (⟨pos, c :: rest⟩ : Cursor Char) = (name, behind)) :
    c :: rest = name ++ behind.rest ∧ isValidVariableName name = true ∧
      ∀ d ∈ behind.rest.head?, isValidVariableChar d = false := by
  cases scanned
  have inside := isValidVariableChar_of_start starts
  refine ⟨(List.takeWhile_append_dropWhile ..).symm, ?_, ?_⟩
  · simp [isValidVariableName, inside, starts]
  · intro d first
    have found := List.head?_dropWhile_not isValidVariableChar (c :: rest)
    dsimp only [char_self] at first
    rw [first] at found
    simpa using found

theorem braced_of_parseBracedVariable {rest name : List Char} {modifier : Option (List Char)}
    (read : parseBracedVariable start ⟨pos, rest⟩ = .ok ((name, modifier), ⟨stop, []⟩)) :
    ∃ text, rest = name ++ (text ++ ['\x7d']) ∧ modifier = modifierOf text ∧
      IsBracedName name text ∧ Balanced '\x7b' '\x7d' text := by
  rw [parseBracedVariable] at read
  dsimp only at read
  split at read
  · cases read
  · rename_i c rest
    split at read
    · cases read
    · split at read
      · rename_i special
        obtain ⟨rfl, text, stands, is, balanced⟩ := braced_of_closeBracedVariable read
        exact ⟨text, congrArg (c :: ·) stands, is, Or.inl ⟨c, special, rfl⟩, balanced⟩
      · split at read
        · rename_i starts
          rcases scanned : scanVariableName (⟨pos, c :: rest⟩ : Cursor Char) with ⟨name, behind⟩
          obtain ⟨whole, valid, ends⟩ := scanVariableName_of_start starts scanned
          rw [scanned] at read
          obtain ⟨rfl, text, stands, is, balanced⟩ := braced_of_closeBracedVariable read
          rw [stands] at ends
          refine ⟨text, whole.trans (congrArg (name ++ ·) stands), is, Or.inr ⟨valid, ?_⟩, balanced⟩
          intro d first
          exact ends d (List.mem_head?_append_of_mem_head? first)
        · cases read

theorem reference_of_lexVariable {rest : List Char}
    (read : lexVariable (⟨pos, '$' :: rest⟩ : Cursor Char) = .ok (token, ⟨stop, []⟩)) :
    Reference ('$' :: rest) token.kind := by
  rw [lexVariable] at read
  dsimp only [Cursor.next] at read
  split at read
  · cases read
  · rename_i c rest
    split at read
    · rename_i opens
      obtain ⟨⟨content, reached⟩, inner, returned⟩ := bind_eq_ok.mp read
      cases returned
      obtain ⟨text, stands, rfl, closed⟩ := @closed_of_readBalancedFrom _ 0 _ _ _ _ _ _ inner
      have is : c = '(' := opens
      dsimp only at stands
      rw [is, stands]
      exact Reference.substitution content closed
    · split at read
      · rename_i opens
        obtain ⟨⟨⟨name, modifier⟩, reached⟩, inner, returned⟩ := bind_eq_ok.mp read
        cases returned
        obtain ⟨text, stands, rfl, named, balanced⟩ := braced_of_parseBracedVariable inner
        have is : c = '\x7b' := opens
        rw [is, stands]
        exact Reference.braced name text named balanced
      · split at read
        · rename_i special
          cases read
          exact Reference.special c special
        · split at read
          · rename_i starts
            rcases scanned : scanVariableName (⟨pos + size '$', c :: rest⟩ : Cursor Char)
              with ⟨name, behind⟩
            obtain ⟨whole, valid, -⟩ := scanVariableName_of_start starts scanned
            rw [scanned] at read
            cases read
            rw [show c :: rest = name from whole.trans (List.append_nil _)]
            exact Reference.name name valid
          · cases read

/-- What the lexer reads alone is a reference. -/
theorem ReadsAlone.reference {text : List Char} (reads : ReadsAlone text token) :
    Reference text token.kind := by
  obtain ⟨begins, stop, read⟩ := reads
  cases text with
  | nil => rcases begins with begins | begins <;> cases begins
  | cons c rest =>
      have begin : c = '$' ∨ c = '`' := begins.imp Option.some.inj Option.some.inj
      have plain : c ≠ ' ' ∧ c ≠ '\t' ∧ c ≠ '\\' := by
        rcases begin with rfl | rfl <;> decide
      rw [nextToken_skipped (skipWhitespace_letter plain)] at read
      have lexed : lexToken true c ⟨0, c :: rest⟩ = .ok (token, ⟨stop, []⟩) := by
        cases found : lexToken true c (⟨0, c :: rest⟩ : Cursor Char) with
        | error error =>
            rw [char_self, found] at read
            cases read
        | ok value =>
            rw [char_self, found] at read
            cases read
            rfl
      rcases begin with rfl | rfl
      · exact reference_of_lexVariable lexed
      · obtain ⟨⟨content, reached⟩, inner, returned⟩ := bind_eq_ok.mp lexed
        cases returned
        obtain ⟨text, stands, rfl, plain⟩ := ticked_of_readBacktickFrom inner
        dsimp only [Cursor.next] at stands
        rw [stands]
        exact Reference.backticks content plain

end Forms

/-! ## References in double quotes -/

section Quoted

variable {start pos : Nat} {later : List Char}

theorem readDoubleQuoted_backtick {lastPos : Nat} {parts : List (WordPart Char (List Char))}
    {literal rest : List Char} {lastWasExpansion : Bool} {part : WordPart Char (List Char)}
    {cursor : Cursor Char}
    (read : lexQuotedBacktick pos ⟨pos + size '`', rest⟩ = .ok (part, cursor)) :
    readDoubleQuoted start parts literal lastWasExpansion lastPos pos ('`' :: rest) =
      readDoubleQuoted start (flushLiteral parts literal parts.isEmpty ++ [part]) [] true
        (pos + size '`') cursor.pos cursor.rest := by
  rw [readDoubleQuoted.eq_def]
  dsimp only
  rw [if_neg (by decide), if_neg (by decide), if_neg (by decide), if_pos (by decide)]
  split
  · rename_i failed
    rw [read] at failed
    cases failed
  · rename_i found
    rw [read] at found
    cases found
    rfl

/-- What is taken from the front ends before the first character that is not. -/
theorem takeWhile_front {p : Char → Bool} {front : List Char} (inside : ∀ c ∈ front, p c = true)
    (ends : ∀ c ∈ later.head?, p c = false) :
    (front ++ later).takeWhile p = front ∧ (front ++ later).dropWhile p = later := by
  rw [List.takeWhile_append_of_pos inside, List.dropWhile_append_of_pos inside]
  cases later with
  | nil => exact ⟨List.append_nil _, rfl⟩
  | cons c rest =>
      have stops : ¬p c = true := Bool.not_eq_true _ ▸ ends c rfl
      rw [List.takeWhile_cons_of_neg stops, List.dropWhile_cons_of_neg stops]
      exact ⟨List.append_nil _, rfl⟩

theorem scanVariableName_append {name : List Char} (pos : Nat)
    (inside : ∀ c ∈ name, isValidVariableChar c = true)
    (ends : ∀ c ∈ later.head?, isValidVariableChar c = false) :
    ∃ stop, scanVariableName (⟨pos, name ++ later⟩ : Cursor Char) = (name, ⟨stop, later⟩) := by
  obtain ⟨taken, dropped⟩ := takeWhile_front inside ends
  refine ⟨pos + (name.map size).sum, ?_⟩
  rw [scanVariableName]
  dsimp only [char_self]
  rw [taken, dropped]

theorem isValidVariableName_chars {name : List Char} (valid : isValidVariableName name = true) :
    ∃ c rest, name = c :: rest ∧ isValidVariableStart c = true ∧
      ∀ d ∈ name, isValidVariableChar d = true := by
  cases name with
  | nil => cases valid
  | cons c rest =>
      obtain ⟨starts, all⟩ := Bool.and_eq_true_iff.mp valid
      refine ⟨c, rest, rfl, starts, ?_⟩
      rw [List.forall_mem_cons]
      exact ⟨isValidVariableChar_of_start starts, List.all_eq_true.mp all⟩

theorem closeBracedVariable_balanced {modifier : List Char} (name : List Char)
    (balanced : Balanced '\x7b' '\x7d' modifier) :
    ∃ stop, closeBracedVariable start name (⟨pos, modifier ++ '\x7d' :: later⟩ : Cursor Char) =
      .ok ((name, modifierOf modifier), ⟨stop, later⟩) := by
  cases modifier with
  | nil => exact ⟨_, rfl⟩
  | cons c rest =>
      have other : c ≠ '\x7d' := by
        rintro rfl
        cases balanced
      have scanned := @scanModifier_balanced start 0 pos (c :: rest) later [] balanced
      refine ⟨pos + ((c :: rest).map size).sum + 1, ?_⟩
      rw [closeBracedVariable]
      dsimp only [List.cons_append, char_self] at scanned ⊢
      rw [if_neg other, scanned]
      rfl

theorem parseBracedVariable_balanced {name modifier : List Char} (start pos : Nat)
    (named : IsBracedName name modifier) (balanced : Balanced '\x7b' '\x7d' modifier) :
    ∃ stop, parseBracedVariable start
        (⟨pos, name ++ (modifier ++ '\x7d' :: later)⟩ : Cursor Char) =
      .ok ((name, modifierOf modifier), ⟨stop, later⟩) := by
  rcases named with ⟨c, special, rfl⟩ | ⟨valid, ends⟩
  · have other : c ≠ '\x7d' := by
      rintro rfl
      cases special
    obtain ⟨stop, closes⟩ := @closeBracedVariable_balanced start (pos + size c) later _ [c] balanced
    refine ⟨stop, ?_⟩
    rw [parseBracedVariable]
    dsimp only [List.cons_append, List.nil_append, char_self]
    rw [if_neg other, if_pos special]
    exact closes
  · obtain ⟨c, rest, is, starts, inside⟩ := isValidVariableName_chars valid
    have behind : ∀ d ∈ (modifier ++ '\x7d' :: later).head?, isValidVariableChar d = false := by
      cases modifier with
      | nil =>
          rintro d ⟨⟩
          rfl
      | cons d rest => exact ends
    obtain ⟨middle, scanned⟩ := scanVariableName_append pos inside behind
    obtain ⟨stop, closes⟩ := @closeBracedVariable_balanced start middle later _ name balanced
    refine ⟨stop, ?_⟩
    rw [parseBracedVariable]
    rw [is] at scanned closes ⊢
    dsimp only [List.cons_append, char_self] at scanned ⊢
    rw [if_neg, if_neg, if_pos starts, scanned]
    · exact closes
    · rw [isSpecialVariable_of_start starts]
      exact Bool.false_ne_true
    · rintro rfl
      cases starts

/-- The lexer of double-quoted strings finds every reference but a bare special variable. -/
theorem readDoubleQuoted_reference {text : List Char} {kind : TokenKind Char}
    (reference : Reference text kind)
    (bare : ∀ c, isSpecialVariable c = true → text ≠ ['$', c]) (lastPos : Nat) :
    ∃ stop, readDoubleQuoted start [] [] false lastPos pos (text ++ ['\"']) =
      .ok ([.literal [] .double, kind.part, .literal [] .double], ⟨stop, []⟩) := by
  have dollar {rest : List Char} {part : WordPart Char (List Char)}
      (read : ∃ stop, lexQuotedDollar pos ⟨pos + size '$', rest ++ ['\"']⟩ =
        .ok (part, ⟨stop, ['\"']⟩)) :
      ∃ stop, readDoubleQuoted start [] [] false lastPos pos ('$' :: rest ++ ['\"']) =
        .ok ([.literal [] .double, part, .literal [] .double], ⟨stop, []⟩) := by
    obtain ⟨stop, read⟩ := read
    refine ⟨stop + size '\"', ?_⟩
    rw [List.cons_append, readDoubleQuoted_dollar rfl read, readDoubleQuoted_close rfl]
    rfl
  cases reference with
  | special c special => exact absurd rfl (bare c special)
  | name name valid =>
      obtain ⟨c, rest, rfl, starts, inside⟩ := isValidVariableName_chars valid
      refine dollar ?_
      obtain ⟨stop, scanned⟩ := @scanVariableName_append ['\"'] _ (pos + size '$') inside (by
        rintro d ⟨⟩
        rfl)
      refine ⟨stop, ?_⟩
      rw [lexQuotedDollar]
      dsimp only [List.cons_append, char_self] at scanned ⊢
      rw [if_neg, if_neg, if_pos starts, scanned]
      · rfl
      · rintro rfl
        cases starts
      · rintro rfl
        cases starts
  | braced name modifier named balanced =>
      refine dollar ?_
      obtain ⟨stop, read⟩ :=
        @parseBracedVariable_balanced ['\"'] _ _ pos (pos + size '$' + 1) named balanced
      refine ⟨stop, ?_⟩
      rw [List.cons_append, List.append_assoc, List.append_assoc]
      change (parseBracedVariable pos
        ⟨pos + size '$' + 1, name ++ (modifier ++ ['\x7d', '\"'])⟩ >>= _) = _
      rw [read]
      rfl
  | substitution content closed =>
      refine dollar ⟨pos + size '$' + 1 + (content.map size).sum + 1, ?_⟩
      rw [List.cons_append, List.append_assoc]
      change (readBalancedContent '(' ')' pos
        ⟨pos + size '$' + 1, content ++ ')' :: ['\"']⟩ >>= _) = _
      rw [readBalancedContent_closed closed]
      rfl
  | backticks content plain =>
      have read : lexQuotedBacktick pos ⟨pos + size '`', content ++ '`' :: ['\"']⟩ =
          .ok (.commandSubstitution content true,
            ⟨pos + size '`' + (content.map size).sum + 1, ['\"']⟩) := by
        rw [lexQuotedBacktick, readBacktickContent]
        dsimp only
        rw [readBacktickFrom_ticked plain]
        rfl
      refine ⟨pos + size '`' + (content.map size).sum + 1 + size '\"', ?_⟩
      rw [List.cons_append, List.append_assoc]
      rw [show ['`'] ++ ['\"'] = '`' :: ['\"'] from rfl, readDoubleQuoted_backtick read,
        readDoubleQuoted_close rfl]
      rfl

/-- In double quotes a reference is one part. -/
theorem tokenize_quoted {text : List Char} {kind : TokenKind Char} (reference : Reference text kind)
    (bare : ∀ c, isSpecialVariable c = true → text ≠ ['$', c]) :
    ∃ span, tokenize ('\"' :: (text ++ ['\"'])) =
      .ok [⟨.doubleQuoted [.literal [] .double, kind.part, .literal [] .double], span⟩] := by
  obtain ⟨stop, read⟩ := @readDoubleQuoted_reference 0 1 _ _ reference bare 1
  suffices next : nextToken true (⟨0, '\"' :: (text ++ ['\"'])⟩ : Cursor Char) = .ok (some
      (⟨.doubleQuoted [.literal [] .double, kind.part, .literal [] .double], ⟨0, stop⟩⟩,
        ⟨stop, []⟩)) from ⟨⟨0, stop⟩, tokenizeFrom_last (by rintro ⟨⟩) rfl next⟩
  rw [nextToken_skipped (skipWhitespace_letter (by decide))]
  change (lexDoubleQuote ⟨0, '\"' :: (text ++ ['\"'])⟩).map some = _
  rw [lexDoubleQuote]
  change (readDoubleQuoted 0 [] [] false 1 1 (text ++ ['\"']) >>= _).map some = _
  rw [read]
  rfl

theorem ReadsAlone.tokenize {text : List Char} {token : Token Char}
    (reads : ReadsAlone text token) : tokenize text = .ok [token] := by
  obtain ⟨stop, read⟩ := reads.read
  have refers := reads.reference.refers
  obtain ⟨kind, span⟩ := token
  refine tokenizeFrom_last ?_ ?_ read
  · rintro rfl
    rcases refers with ⟨name, modifier, same⟩ | ⟨content, backtick, same⟩ <;> cases same
  · rcases refers with ⟨name, modifier, rfl⟩ | ⟨content, backtick, rfl⟩ <;> rfl

end Quoted

end OddJobs.Shell
