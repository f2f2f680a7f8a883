import OddJobs.Library.Program
import OddJobs.Library.Slices
import OddJobs.Shell.Expansion

/-!
# Expanding text

A here-document and the default of a modifier are texts, in which the expander finds the
references itself, character by character.
-/

namespace OddJobs.Shell

open Library

/-! ## Finding references -/

inductive TextPiece where
  | literal (text : List Char)
  | simpleVar (name : List Char)
  | bracedVar (name : List Char) (modifier : Option (List Char))
  | substitution (content : List Char)
  deriving DecidableEq, Repr

def isModifierStart (c : Char) : Bool :=
  c == ':' || c == '-' || c == '+' || c == '=' || c == '?'

/-- Scan a braced reference from a depth on, with the name and the modifier read so far.
What is never closed is literal text. -/
def scanBracedVar : Nat → List Char → Option (List Char) → List Char → TextPiece × List Char
  | _, name, modifier, [] => (.literal ("$\x7b".toList ++ name ++ modifier.getD []), [])
  | depth, name, modifier, c :: rest =>
      if c = '}' then
        if depth - 1 = 0 then (.bracedVar name modifier, rest)
        else scanBracedVar (depth - 1) name (modifier.map (· ++ [c])) rest
      else if c = '\x7b' then scanBracedVar (depth + 1) name (modifier.map (· ++ [c])) rest
      else if modifier.isSome then scanBracedVar depth name (modifier.map (· ++ [c])) rest
      else if isModifierStart c ∧ depth = 1 then scanBracedVar depth name (some [c]) rest
      else if isValidVariableChar c then scanBracedVar depth (name ++ [c]) none rest
      else scanBracedVar depth name (some [c]) rest

def scanCommandSubst : Nat → List Char → List Char → TextPiece × List Char
  | _, content, [] => (.literal ("$(".toList ++ content), [])
  | depth, content, c :: rest =>
      if c = '(' then scanCommandSubst (depth + 1) (content ++ [c]) rest
      else if c = ')' then
        if depth - 1 = 0 then (.substitution content, rest)
        else scanCommandSubst (depth - 1) (content ++ [c]) rest
      else scanCommandSubst depth (content ++ [c]) rest

/-- Scan a backtick command substitution; some characters lose the backslash before them. -/
def scanBacktickSubst : List Char → List Char → TextPiece × List Char
  | content, [] => (.literal ('`' :: content), [])
  | content, [c] =>
      if c = '`' then (.substitution content, []) else (.literal ('`' :: (content ++ [c])), [])
  | content, c :: next :: rest =>
      if c = '`' then (.substitution content, next :: rest)
      else if c = '\\' ∧ (next = '`' ∨ next = '\\' ∨ next = '$') then
        scanBacktickSubst (content ++ [next]) rest
      else scanBacktickSubst (content ++ [c]) (next :: rest)

/-- What stands after a `$`. -/
def scanTextDollar : List Char → TextPiece × List Char
  | [] => (.literal ['$'], [])
  | c :: rest =>
      if c = '\x7b' then scanBracedVar 1 [] none rest
      else if c = '(' then scanCommandSubst 1 [] rest
      else if isValidVariableStart c then
        (.simpleVar ((c :: rest).takeWhile isValidVariableChar),
          (c :: rest).dropWhile isValidVariableChar)
      else (.literal ['$'], c :: rest)

def scanTextBackslash : List Char → TextPiece × List Char
  | [] => (.literal ['\\'], [])
  | c :: rest =>
      if c = '$' ∨ c = '`' ∨ c = '\\' then (.literal [c], rest)
      else if c = '\n' then (.literal [], rest)
      else (.literal ['\\'], c :: rest)

def scanTextPiece (c : Char) (rest : List Char) : TextPiece × List Char :=
  if c = '$' then scanTextDollar rest
  else if c = '`' then scanBacktickSubst [] rest
  else if c = '\\' then scanTextBackslash rest
  else (.literal [c], rest)

def TextPiece.modifierLength : TextPiece → Nat
  | bracedVar _ modifier => (modifier.getD []).length
  | _ => 0

theorem scanBracedVar_length (depth : Nat) (name : List Char) (modifier : Option (List Char))
    (text : List Char) :
    (scanBracedVar depth name modifier text).2.length ≤ text.length ∧
      (scanBracedVar depth name modifier text).1.modifierLength ≤
        (modifier.getD []).length + text.length := by
  induction text generalizing depth name modifier with
  | nil => exact ⟨Nat.le_refl _, Nat.zero_le _⟩
  | cons c rest ih =>
      have grown : ((modifier.map (· ++ [c])).getD []).length ≤ (modifier.getD []).length + 1 := by
        cases modifier <;> simp
      have later (depth : Nat) (name : List Char) (read : Option (List Char))
          (bounded : (read.getD []).length ≤ (modifier.getD []).length + 1) :
          (scanBracedVar depth name read rest).2.length ≤ (c :: rest).length ∧
            (scanBracedVar depth name read rest).1.modifierLength ≤
              (modifier.getD []).length + (c :: rest).length := by
        obtain ⟨shorter, bound⟩ := ih depth name read
        rw [List.length_cons]
        constructor <;> omega
      rw [scanBracedVar]
      split
      · split
        · refine ⟨by simp, ?_⟩
          change (modifier.getD []).length ≤ _
          omega
        · exact later _ _ _ grown
      · split
        · exact later _ _ _ grown
        · split
          · exact later _ _ _ grown
          · split
            · exact later _ _ _ (by simp)
            · split <;> exact later _ _ _ (by simp)

theorem scanCommandSubst_length (depth : Nat) (content text : List Char) :
    (scanCommandSubst depth content text).2.length ≤ text.length ∧
      (scanCommandSubst depth content text).1.modifierLength = 0 := by
  induction text generalizing depth content with
  | nil => exact ⟨Nat.le_refl _, rfl⟩
  | cons c rest ih =>
      have later (depth : Nat) (content : List Char) :
          (scanCommandSubst depth content rest).2.length ≤ (c :: rest).length ∧
            (scanCommandSubst depth content rest).1.modifierLength = 0 := by
        obtain ⟨shorter, zero⟩ := ih depth content
        exact ⟨Nat.le_succ_of_le shorter, zero⟩
      rw [scanCommandSubst]
      split
      · exact later _ _
      · split
        · split
          · exact ⟨Nat.le_succ _, rfl⟩
          · exact later _ _
        · exact later _ _

theorem scanBacktickSubst_length (content text : List Char) :
    (scanBacktickSubst content text).2.length ≤ text.length ∧
      (scanBacktickSubst content text).1.modifierLength = 0 := by
  fun_induction scanBacktickSubst content text with
  | case1 content => exact ⟨Nat.le_refl _, rfl⟩
  | case2 content | case3 content c => exact ⟨Nat.zero_le _, rfl⟩
  | case4 content next rest => exact ⟨Nat.le_succ _, rfl⟩
  | case5 content c next rest opens escaped ih =>
      exact ⟨Nat.le_trans ih.1 (Nat.le_add_right _ 2), ih.2⟩
  | case6 content c next rest opens plain ih => exact ⟨Nat.le_trans ih.1 (Nat.le_succ _), ih.2⟩

theorem scanTextPiece_length (c : Char) (rest : List Char) :
    (scanTextPiece c rest).2.length ≤ rest.length ∧
      (scanTextPiece c rest).1.modifierLength ≤ rest.length := by
  have zero {piece : TextPiece × List Char}
      (scanned : piece.2.length ≤ rest.length ∧ piece.1.modifierLength = 0) :
      piece.2.length ≤ rest.length ∧ piece.1.modifierLength ≤ rest.length :=
    ⟨scanned.1, scanned.2 ▸ Nat.zero_le _⟩
  have dollar : (scanTextDollar rest).2.length ≤ rest.length ∧
      (scanTextDollar rest).1.modifierLength ≤ rest.length := by
    cases rest with
    | nil => exact ⟨Nat.le_refl _, Nat.zero_le _⟩
    | cons d rest =>
        have later {piece : TextPiece × List Char}
            (scanned : piece.2.length ≤ rest.length ∧ piece.1.modifierLength ≤ rest.length) :
            piece.2.length ≤ (d :: rest).length ∧ piece.1.modifierLength ≤ (d :: rest).length :=
          ⟨Nat.le_succ_of_le scanned.1, Nat.le_succ_of_le scanned.2⟩
        rw [scanTextDollar]
        split
        · obtain ⟨shorter, bounded⟩ := scanBracedVar_length 1 [] none rest
          exact later ⟨shorter, Nat.le_trans bounded (Nat.le_of_eq (Nat.zero_add _))⟩
        · split
          · obtain ⟨shorter, none⟩ := scanCommandSubst_length 1 [] rest
            exact later ⟨shorter, none ▸ Nat.zero_le _⟩
          · split
            · exact ⟨(List.dropWhile_suffix _).length_le, Nat.zero_le _⟩
            · exact ⟨Nat.le_refl _, Nat.zero_le _⟩
  have backslash : (scanTextBackslash rest).2.length ≤ rest.length ∧
      (scanTextBackslash rest).1.modifierLength = 0 := by
    cases rest with
    | nil => exact ⟨Nat.le_refl _, rfl⟩
    | cons d rest =>
        rw [scanTextBackslash]
        split
        · exact ⟨Nat.le_succ _, rfl⟩
        · split
          · exact ⟨Nat.le_succ _, rfl⟩
          · exact ⟨Nat.le_refl _, rfl⟩
  rw [scanTextPiece]
  split
  · exact dollar
  · split
    · exact zero (scanBacktickSubst_length [] rest)
    · split
      · exact zero backslash
      · exact ⟨Nat.le_refl _, Nat.zero_le _⟩

/-! ## Modifiers -/

/-- What expansions ask of the rest of the shell and of the system, apart from modifiers. -/
structure Host (ε : Type) where
  homeDir : Option (List Char)
  user : Option (List Char)
  processId : Nat
  undefinedVariable : List Char → Span → ε
  parseFailed : ParseError → ε
  /-- A slice that does not begin at a character. -/
  notCharBoundary : ε
  executeSubstitution : Context → CommandList → Except ε (List Char)

/-- Execute a command substitution whose text has not been parsed yet. -/
def Host.executeUnparsed {ε : Type} (host : Host ε) (context : Context) (content : List Char) :
    Except ε (List Char) := do
  let body ← (Parser.parse content).mapError host.parseFailed
  host.executeSubstitution context body

/-- Parse a modifier into whether it checks for empty values, its operator and its default.
The operator is taken for one byte. -/
def parseModifier : List Char → Option (Bool × Char × List Char)
  | ':' :: op :: value => if op.utf8Size = 1 then some (true, op, value) else none
  | [':'] => some (true, '-', [])
  | op :: value => if op.utf8Size = 1 then some (false, op, value) else none
  | [] => some (false, '-', [])

theorem parseModifier_length {modifier default : List Char} {checkEmpty : Bool} {op : Char}
    (parsed : parseModifier modifier = some (checkEmpty, op, default)) :
    default.length ≤ modifier.length := by
  revert parsed
  fun_cases parseModifier modifier with
  | case1 op value ascii =>
      rintro ⟨⟩
      exact Nat.le_add_right _ 2
  | case3 | case6 =>
      rintro ⟨⟩
      exact Nat.zero_le _
  | case4 op value _ _ ascii =>
      rintro ⟨⟩
      exact Nat.le_succ _
  | case2 | case5 => rintro ⟨⟩

/-- The value of a variable with a modifier, or what is to be done for it. -/
inductive Modified where
  | value (text : List Char)
  | default (assign : Bool)
  | required
  deriving DecidableEq, Repr

def modify (checkEmpty : Bool) (op : Char) (value : Option (List Char)) : Modified :=
  let applies := value = none ∨ checkEmpty = true ∧ value = some []
  let kept := Modified.value (value.getD [])
  if op = '-' then if applies then .default false else kept
  else if op = '=' then if applies then .default true else kept
  else if op = '+' then if applies then .value [] else .default false
  else if op = '?' then if applies then .required else kept
  else kept

def Context.assign (context : Context) (name value : List Char) : Context :=
  if name = ['?'] ∨ name = ['$'] ∨ name = ['#'] ∨ name = ['0'] then context
  else { context with vars := fun other => if other = name then some value else context.vars other }

/-! ## Expansion -/

section Expansion

variable {ε : Type} (host : Host ε)

def textVariable (name : List Char) (pos : Nat) : Program Context ε (List Char) := fun context =>
  match context.vars name with
  | some value => (.ok value, context)
  | none => (.error (host.undefinedVariable name ⟨pos, pos⟩), context)

mutual

def expandText (pos : Nat) (text : List Char) : Program Context ε (List Char) :=
  match text with
  | [] => pure []
  | c :: rest => do
      let expanded ← expandTextPiece pos (scanTextPiece c rest).1
      let after ← expandText (pos + (Text.size (c :: rest) - Text.size (scanTextPiece c rest).2))
        (scanTextPiece c rest).2
      return expanded ++ after
termination_by 3 * text.length
decreasing_by
  · have bounded := (scanTextPiece_length c rest).2
    rw [List.length_cons]
    omega
  · have shorter := (scanTextPiece_length c rest).1
    rw [List.length_cons]
    omega

def expandTextPiece (pos : Nat) (piece : TextPiece) : Program Context ε (List Char) :=
  match piece with
  | .literal text => pure text
  | .simpleVar name => textVariable host name pos
  | .bracedVar name none => textVariable host name pos
  | .bracedVar name (some modifier) => do
      let value ← Program.read fun context => context.vars name
      applyModifier name modifier value ⟨pos, pos⟩
  | .substitution content => do
      let context ← Program.read id
      let output ← Program.ofExcept (host.executeUnparsed context content)
      return Text.trimNewlines output
termination_by 3 * piece.modifierLength + 2
decreasing_by exact Nat.lt_succ_self _

def applyModifier (name modifier : List Char) (value : Option (List Char)) (span : Span) :
    Program Context ε (List Char) :=
  match _parsed : parseModifier modifier with
  | none => Program.throw host.notCharBoundary
  | some (checkEmpty, op, default) =>
      match modify checkEmpty op value with
      | .value text => pure text
      | .default assign => do
          let expanded ← expandText 0 default
          let _ ← Program.modify fun context =>
            if assign then context.assign name expanded else context
          return expanded
      | .required => Program.throw (host.undefinedVariable name span)
termination_by 3 * modifier.length + 1
decreasing_by
  have shorter := parseModifier_length _parsed
  omega

end

def expandHeredocBody (body : List Char) : Program Context ε (List Char) := expandText host 0 body

def Host.surroundings : Surroundings ε where
  homeDir := host.homeDir
  user := host.user
  processId := host.processId
  undefinedVariable := host.undefinedVariable
  applyModifier := fun context name modifier value span =>
    (applyModifier host name modifier value span).outcome context
  executeSubstitution := host.executeSubstitution

end Expansion

end OddJobs.Shell
