import OddJobs.Core.Base
import OddJobs.Library.Patterns

/-!
# Template variables

The placeholders of a template are replaced by values.  Values are escaped before they are put
into a shell command.
-/

namespace OddJobs

open Library

/-- The character as it stands inside a double-quoted shell string. -/
def escapeChar (c : Char) : List Char :=
  if c = '\\' ∨ c = '$' ∨ c = '`' ∨ c = '\"' then ['\\', c] else [c]

/-- Escape a text for use inside shell double-quoted contexts. -/
def escapeForShell (text : List Char) : List Char := text.flatMap escapeChar

namespace Template

/-- The environment of the process, and the classes of characters that the regular expressions
take from the Unicode tables. -/
structure Environment where
  var : List Char → Option (List Char)
  isWord : Char → Bool
  isDigit : Char → Bool

variable (env : Environment)

/-! ## `${VAR:-default}` -/

/-- `ENV_PATTERN`: a name and its default. -/
def envPattern : Pattern (List Char × List Char) := fun text => do
  let rest ← Pattern.literal "$\x7b".toList text
  let name := rest.takeWhile env.isWord
  if name.isEmpty then none
  else do
    let rest ← Pattern.literal ":-".toList (rest.dropWhile env.isWord)
    let after ← Pattern.literal ['\x7d'] (rest.dropWhile (· != '\x7d'))
    return ((name, rest.takeWhile (· != '\x7d')), after)

/-- Expand `${VAR:-default}` patterns from the environment. -/
def expandEnvironment (template : List Char) : List Char :=
  Pattern.replaceAll (envPattern env) (fun (name, default) => (env.var name).getD default) template

/-! ## `${name:offset:length}` -/

def isNameStart (c : Char) : Bool := c.isAlpha || c == '_'

def isNameChar (c : Char) : Bool := c.isAlphanum || c == '_'

/-- Behind a dot a name may hold hyphens. -/
def isSegmentChar (c : Char) : Bool := isNameChar c || c == '-'

/-- The segments behind the dots of a name.  There are no more than the fuel. -/
def nameSegments : Nat → List Char → List Char × List Char
  | 0, text => ([], text)
  | fuel + 1, text =>
      match (Pattern.literal ['.'] text).bind (Pattern.identifier isNameStart isSegmentChar) with
      | none => ([], text)
      | some (segment, rest) =>
          let (segments, rest) := nameSegments fuel rest
          ('.' :: segment ++ segments, rest)

def bound (text : List Char) : Option (List Char) × List Char :=
  match (Pattern.literal [':'] text).bind (Pattern.identifier env.isDigit env.isDigit) with
  | none => (none, text)
  | some (digits, rest) => (some digits, rest)

/-- A reference to a variable, as it stands in the text, with the digits of its bounds. -/
structure Reference where
  whole : List Char
  name : List Char
  offset : Option (List Char)
  length : Option (List Char)
  deriving DecidableEq, Repr

/-- `VAR_PATTERN`: `${variable_name}` or `${namespace.variable_name}`, with optional bounds. -/
def varPattern : Pattern Reference := fun text => do
  let rest ← Pattern.literal "$\x7b".toList text
  let (first, rest) ← Pattern.identifier isNameStart isNameChar rest
  let (segments, rest) := nameSegments rest.length rest
  let (offset, rest) := bound env rest
  let (length, rest) := if offset.isSome then bound env rest else (none, rest)
  let rest ← Pattern.literal ['\x7d'] rest
  let whole := text.take (text.length - rest.length)
  return ({ whole, name := first ++ segments, offset, length }, rest)

/-- The number of values of a `usize`. -/
def USIZE_VALUES : Nat := 18446744073709551616

/-- Parse a `usize`; the pattern admits digits that it does not. -/
def parseUsize (digits : List Char) : Option Nat :=
  let number := Nat.ofDigitChars 10 digits 0
  if digits.all Char.isDigit ∧ number < USIZE_VALUES then some number else none

def Reference.part (reference : Reference) (value : List Char) : List Char :=
  match reference.offset.bind parseUsize, reference.length.bind parseUsize with
  | some offset, some length => (value.drop offset).take length
  | some offset, none => value.drop offset
  | none, _ => value

def Reference.render (shellEscape : Bool) (vars : HashMap String) (reference : Reference) :
    List Char :=
  match vars[String.ofList reference.name]? with
  | some value =>
      let value := reference.part value.toList
      if shellEscape then escapeForShell value else value
  | none => reference.whole

def interpolateInner (template : String) (vars : HashMap String) (shellEscape : Bool) : String :=
  String.ofList (Pattern.replaceAll (varPattern env) (Reference.render shellEscape vars)
    (expandEnvironment env template.toList))

/-- Interpolate `${name}` placeholders with values from the variables. -/
def interpolate (template : String) (vars : HashMap String) : String :=
  interpolateInner env template vars false

/-- Interpolate `${name}` placeholders with shell-safe escaping. -/
def interpolateShell (template : String) (vars : HashMap String) : String :=
  interpolateInner env template vars true

/-! ## What a template refers to -/

/-- The references in a template, once the environment is expanded. -/
def references (template : String) : List Reference :=
  Pattern.replaced (varPattern env) (expandEnvironment env template.toList)

theorem interpolateInner_congr {template : String} {vars others : HashMap String}
    {shellEscape : Bool} (alike : ∀ reference ∈ references env template,
      reference.render shellEscape vars = reference.render shellEscape others) :
    interpolateInner env template vars shellEscape =
      interpolateInner env template others shellEscape :=
  congrArg String.ofList (Pattern.replaceAll_congr alike)

theorem nameSegments_append (fuel : Nat) (text : List Char) :
    (nameSegments fuel text).1 ++ (nameSegments fuel text).2 = text := by
  induction fuel generalizing text with
  | zero => rfl
  | succ fuel ih =>
      rw [nameSegments]
      cases read : (Pattern.literal ['.'] text).bind
          (Pattern.identifier isNameStart isSegmentChar) with
      | none => rfl
      | some pair =>
          obtain ⟨behind, dot, named⟩ := Option.bind_eq_some_iff.mp read
          rw [Pattern.literal_eq_some dot, Pattern.identifier_eq_some named]
          simp [ih]

theorem bound_suffix (text : List Char) : (bound env text).2 <:+ text := by
  unfold bound
  split
  · exact List.suffix_refl text
  · rename_i read
    obtain ⟨behind, colon, digits⟩ := Option.bind_eq_some_iff.mp read
    rw [Pattern.literal_eq_some colon, Pattern.identifier_eq_some digits]
    exact ⟨_, List.append_assoc ..⟩

/-- The text of a reference begins with a dollar sign and a brace. -/
theorem brace_mem_whole {text rest : List Char} {reference : Reference}
    (read : varPattern env text = some (reference, rest)) : '\x7b' ∈ reference.whole := by
  obtain ⟨inside, opens, read⟩ := Option.bind_eq_some_iff.mp read
  obtain ⟨⟨first, behind⟩, begins, read⟩ := Option.bind_eq_some_iff.mp read
  dsimp only at read
  obtain ⟨last, closes, read⟩ := Option.bind_eq_some_iff.mp read
  cases read
  have named := congrArg List.length (Pattern.identifier_eq_some begins)
  have segments := congrArg List.length (nameSegments_append behind.length behind)
  have ended := Pattern.literal_eq_some closes
  have offset := (bound_suffix env (nameSegments behind.length behind).2).length_le
  have length := (bound_suffix env (bound env (nameSegments behind.length behind).2).2).length_le
  rw [List.length_append] at named segments
  have shorter : rest.length ≤ inside.length := by
    split at ended
    · have remaining := congrArg List.length ended
      rw [List.length_append] at remaining
      omega
    · have remaining := congrArg List.length ended
      rw [List.length_append] at remaining
      dsimp only at remaining
      omega
  rw [Pattern.literal_eq_some opens]
  change '\x7b' ∈ List.take ((inside.length + 2) - rest.length) ('$' :: '\x7b' :: inside)
  rw [show inside.length + 2 - rest.length = (inside.length - rest.length) + 2 by omega]
  exact List.mem_cons_of_mem _ List.mem_cons_self

end Template

end OddJobs
