import OddJobs.Library.Results
import OddJobs.Shell.Text

/-!
# Expanding words in a context

The expansion of a word changes the context as it goes, and what has been changed stays where
the expansion fails.  Apart from this it is the expansion that returns a new context.
-/

namespace OddJobs.Shell

open Library

section Words

variable {ε : Type} (host : Host ε)

def expandVariableIn (span : Span) (name : List Char) (modifier : Option (List Char)) :
    Program Context ε (List Char) := do
  let value ← Program.read fun context =>
    (resolveSpecialVariable host.surroundings context name).or (context.vars name)
  match modifier with
  | some modifier => applyModifier host name modifier value span
  | none =>
      match value with
      | some value => pure value
      | none => Program.throw (host.undefinedVariable name span)

def expandPartIn (span : Span) (first : Bool) (result : GlobEligibility) :
    WordPart Char CommandList → Program Context ε GlobEligibility
  | .var name modifier => do
      let expanded ← expandVariableIn host span name modifier
      return result.pushIneligible expanded
  | part => Program.keeping fun context =>
      expandPart host.surroundings span first result context part

def expandPartsIn (span : Span) (first : Bool) (result : GlobEligibility) :
    List (WordPart Char CommandList) → Program Context ε GlobEligibility
  | [] => pure result
  | part :: rest => do
      let result ← expandPartIn host span first result part
      expandPartsIn span false result rest

def expandWordIn (word : Word CommandList) : Program Context ε (List Char) := do
  let result ← expandPartsIn host word.span true .new word.parts
  return result.text

def fieldOfPartIn (span : Span) (first : Bool) :
    WordPart Char CommandList → Program Context ε ExpandedField
  | .var name modifier => do
      let expanded ← expandVariableIn host span name modifier
      return .split expanded
  | part => Program.keeping fun context => fieldOfPart host.surroundings span first context part

def fieldsOfPartsIn (span : Span) (first : Bool) :
    List (WordPart Char CommandList) → Program Context ε (List ExpandedField)
  | [] => pure []
  | part :: rest => do
      let field ← fieldOfPartIn host span first part
      let fields ← fieldsOfPartsIn span false rest
      return field :: fields

def expandWordSplitGlobIn (pathnames : Pathnames ε) (word : Word CommandList) :
    Program Context ε (List (List Char)) :=
  if isFullyQuoted word.parts then do
    let text ← expandWordIn host word
    return [text]
  else do
    let parts ← fieldsOfPartsIn host word.span true word.parts
    let ifs ← Program.read getIfs
    let results ← Program.ofExcept
      ((splitFieldsWithEligibility parts ifs).mapM (expandField pathnames))
    return results.flatten

theorem outcome_expandVariableIn (span : Span) (context : Context) (name : List Char)
    (modifier : Option (List Char)) : (expandVariableIn host span name modifier).outcome context =
      expandVariable host.surroundings span context name modifier := by
  unfold expandVariableIn expandVariable
  rw [Program.outcome_bind]
  cases modifier with
  | some modifier => rfl
  | none =>
      change Program.outcome _ context = _
      dsimp only
      cases (resolveSpecialVariable host.surroundings context name).or (context.vars name) <;> rfl

theorem outcome_expandPartIn (span : Span) (first : Bool) (result : GlobEligibility)
    (context : Context) (part : WordPart Char CommandList) :
    (expandPartIn host span first result part).outcome context =
      expandPart host.surroundings span first result context part := by
  cases part with
  | var name modifier =>
      unfold expandPartIn expandPart
      rw [Program.outcome_bind, outcome_expandVariableIn]
      rfl
  | literal | commandSubstitution => exact Program.outcome_keeping _ _

theorem outcome_expandWordIn (context : Context) (word : Word CommandList) :
    (expandWordIn host word).outcome context = expandWord host.surroundings context word := by
  have parts (span : Span) (first : Bool) (result : GlobEligibility) (context : Context)
      (parts : List (WordPart Char CommandList)) :
      (expandPartsIn host span first result parts).outcome context =
        expandWordFrom host.surroundings span first result context parts := by
    induction parts generalizing first result context with
    | nil => rfl
    | cons part rest ih =>
        rw [expandPartsIn, Program.outcome_bind, outcome_expandPartIn, expandWordFrom]
        exact bind_congr_ok rfl fun expanded _ => ih false expanded.1 expanded.2
  unfold expandWordIn expandWord
  rw [Program.outcome_bind, parts]
  rfl

theorem outcome_fieldOfPartIn (span : Span) (first : Bool) (context : Context)
    (part : WordPart Char CommandList) :
    (fieldOfPartIn host span first part).outcome context =
      fieldOfPart host.surroundings span first context part := by
  cases part with
  | var name modifier =>
      unfold fieldOfPartIn fieldOfPart
      rw [Program.outcome_bind, outcome_expandVariableIn]
      rfl
  | literal | commandSubstitution =>
      rw [fieldOfPartIn]
      · exact Program.outcome_keeping _ _
      · rintro _ _ ⟨⟩

theorem outcome_expandWordSplitGlobIn (pathnames : Pathnames ε) (context : Context)
    (word : Word CommandList) : (expandWordSplitGlobIn host pathnames word).outcome context =
      expandWordSplitGlob host.surroundings pathnames context word := by
  have parts (span : Span) (first : Bool) (context : Context)
      (parts : List (WordPart Char CommandList)) :
      (fieldsOfPartsIn host span first parts).outcome context =
        fieldsOfParts host.surroundings span first context parts := by
    induction parts generalizing first context with
    | nil => rfl
    | cons part rest ih =>
        rw [fieldsOfPartsIn, Program.outcome_bind, outcome_fieldOfPartIn, fieldsOfParts]
        refine bind_congr_ok rfl fun field _ => ?_
        rw [Program.outcome_bind, ih]
        rfl
  unfold expandWordSplitGlobIn expandWordSplitGlob
  split
  · rw [Program.outcome_bind, outcome_expandWordIn]
    rfl
  · rw [Program.outcome_bind, parts]
    refine bind_congr_ok rfl fun fields _ => ?_
    rw [Program.outcome_bind]
    change (Program.outcome _ fields.2) = _
    rw [Program.outcome_bind]
    dsimp only
    cases (splitFieldsWithEligibility fields.1 (getIfs fields.2)).mapM (expandField pathnames) <;> rfl

end Words

end OddJobs.Shell
