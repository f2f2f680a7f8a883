import OddJobs.Library.Groups
import OddJobs.Shell.Sentences

/-!
# Expanding words

A word is expanded part by part; what its expansions bring is split into fields, and a field
with a pattern stands for the paths that match it.
-/

namespace OddJobs.Shell

/-! ## What an expansion consults -/

/-- What the shell keeps while it runs commands. -/
structure Context where
  vars : List Char → Option (List Char)
  lastExitCode : Int
  ifs : List Char

/-- What expansions ask of the rest of the shell and of the system. -/
structure Surroundings (ε : Type) where
  homeDir : Option (List Char)
  /-- The variable `USER` of the process. -/
  user : Option (List Char)
  processId : Nat
  undefinedVariable : List Char → Span → ε
  applyModifier : Context → List Char → List Char → Option (List Char) → Span →
    Except ε (List Char × Context)
  /-- The output of a substitution, which runs in a context of its own. -/
  executeSubstitution : Context → CommandList → Except ε (List Char)

/-- The paths that match a text, where the marked characters act as a pattern. -/
abbrev Pathnames (ε : Type) := List (Char × Bool) → Except ε (List (List Char))

def bytes (text : List Char) : List UInt8 := text.flatMap String.utf8EncodeChar

theorem bytes_cons (c : Char) (text : List Char) :
    bytes (c :: text) = String.utf8EncodeChar c ++ bytes text := List.flatMap_cons

theorem bytes_append (first second : List Char) :
    bytes (first ++ second) = bytes first ++ bytes second := List.flatMap_append

def isPatternChar (c : Char) : Bool := c == '*' || c == '?' || c == '['

section Expansion

variable {ε : Type} (around : Surroundings ε)

def getUserHome (username : List Char) : Option (List Char) :=
  match around.user with
  | some user => if username = user then around.homeDir else none
  | none => none

def expandTilde (text : List Char) : List Char :=
  match text with
  | '~' :: rest =>
      let user := rest.takeWhile (· != '/')
      let suffix := rest.dropWhile (· != '/')
      let home := if user = [] then around.homeDir else getUserHome around user
      match home with
      | some home => home ++ suffix
      | none => text
  | _ => text

/-- Resolve a special shell variable (`$?`, `$$`, `$#`, `$0`). -/
def resolveSpecialVariable (context : Context) (name : List Char) : Option (List Char) :=
  if name = ['?'] then some (toString context.lastExitCode).toList
  else if name = ['$'] then some (toString around.processId).toList
  else if name = ['#'] then some ['0']
  else if name = ['0'] then some "oj-shell".toList
  else none

def expandVariable (span : Span) (context : Context) (name : List Char)
    (modifier : Option (List Char)) : Except ε (List Char × Context) :=
  let value := (resolveSpecialVariable around context name).or (context.vars name)
  match modifier with
  | some modifier => around.applyModifier context name modifier value span
  | none =>
      match value with
      | some value => .ok (value, context)
      | none => .error (around.undefinedVariable name span)

def expandSubstitution (context : Context) (body : CommandList) : Except ε (List Char) := do
  let output ← around.executeSubstitution context body
  return (output.reverse.dropWhile (· == '\n')).reverse

/-! ## Text with its glob eligibility -/

/-- Process backslash escapes in unquoted text: each character with its eligibility.  Escaped
glob metacharacters become literal and ineligible; all else is eligible. -/
def processGlobEscapes : List Char → List (Char × Bool)
  | [] => []
  | [c] => [(c, true)]
  | c :: next :: rest =>
      if c = '\\' ∧ (isPatternChar next ∨ next = '\\') then (next, false) :: processGlobEscapes rest
      else (c, true) :: processGlobEscapes (next :: rest)

/-- An expanded text, and which of its bytes can trigger glob expansion. -/
structure GlobEligibility where
  text : List Char
  eligible : List Bool
  deriving DecidableEq, Repr

namespace GlobEligibility

def new : GlobEligibility := ⟨[], []⟩

def pushEligible (result : GlobEligibility) (text : List Char) : GlobEligibility :=
  ⟨result.text ++ text, result.eligible ++ List.replicate (bytes text).length true⟩

def pushIneligible (result : GlobEligibility) (text : List Char) : GlobEligibility :=
  ⟨result.text ++ text, result.eligible ++ List.replicate (bytes text).length false⟩

def pushEligibleWithEscapes (result : GlobEligibility) (text : List Char) : GlobEligibility :=
  let processed := processGlobEscapes text
  ⟨result.text ++ processed.map (·.1), result.eligible ++ processed.map (·.2)⟩

/-- Check if the text contains any glob-eligible metacharacters. -/
def hasGlobPattern (result : GlobEligibility) : Bool :=
  ((bytes result.text).zip result.eligible).any fun (byte, eligible) =>
    eligible && isPatternChar (Char.ofNat byte.toNat)

end GlobEligibility

/-- A field tracking both IFS-splitting behavior and glob eligibility. -/
structure ExpandedField where
  text : List Char
  globEligible : List Bool
  splittable : Bool
  deriving DecidableEq, Repr

namespace ExpandedField

def literal (text : List Char) (globEligible processEscapes : Bool) : ExpandedField :=
  if processEscapes then
    let processed := processGlobEscapes text
    ⟨processed.map (·.1), processed.map (·.2), false⟩
  else ⟨text, List.replicate (bytes text).length globEligible, false⟩

def split (text : List Char) : ExpandedField :=
  ⟨text, List.replicate (bytes text).length false, true⟩

end ExpandedField

/-! ## Without splitting -/

/-- The text of a literal: only the first part of a word has a tilde expanded. -/
def literalText (first : Bool) (value : List Char) (quoted : QuoteStyle) : List Char :=
  if first ∧ quoted = .unquoted then expandTilde around value else value

def expandPart (span : Span) (first : Bool) (result : GlobEligibility) (context : Context) :
    WordPart Char CommandList → Except ε (GlobEligibility × Context)
  | .literal value quoted =>
      if quoted = .unquoted then
        .ok (result.pushEligibleWithEscapes (literalText around first value quoted), context)
      else .ok (result.pushIneligible value, context)
  | .var name modifier => do
      let (expanded, context) ← expandVariable around span context name modifier
      return (result.pushIneligible expanded, context)
  | .commandSubstitution body _ => do
      let trimmed ← expandSubstitution around context body
      return (result.pushIneligible trimmed, context)

def expandWordFrom (span : Span) (first : Bool) (result : GlobEligibility) (context : Context) :
    List (WordPart Char CommandList) → Except ε (GlobEligibility × Context)
  | [] => .ok (result, context)
  | part :: rest => do
      let (result, context) ← expandPart around span first result context part
      expandWordFrom span false result context rest

def expandWord (context : Context) (word : Word CommandList) :
    Except ε (List Char × Context) := do
  let (result, context) ← expandWordFrom around word.span true .new context word.parts
  return (result.text, context)

/-! ## With splitting -/

def fieldOfPart (span : Span) (first : Bool) (context : Context) :
    WordPart Char CommandList → Except ε (ExpandedField × Context)
  | .literal value quoted =>
      let unquoted := decide (quoted = .unquoted)
      .ok (.literal (literalText around first value quoted) unquoted unquoted, context)
  | .var name modifier => do
      let (expanded, context) ← expandVariable around span context name modifier
      return (.split expanded, context)
  | .commandSubstitution body _ => do
      let trimmed ← expandSubstitution around context body
      return (.split trimmed, context)

def fieldsOfParts (span : Span) (first : Bool) (context : Context) :
    List (WordPart Char CommandList) → Except ε (List ExpandedField × Context)
  | [] => .ok ([], context)
  | part :: rest => do
      let (field, context) ← fieldOfPart around span first context part
      let (fields, context) ← fieldsOfParts span false context rest
      return (field :: fields, context)

/-- The bytes of a literal, each taken for a character of its own, with their eligibility. -/
def literalBytes (part : ExpandedField) : List (Char × Bool) :=
  (bytes part.text).zipIdx.map fun (byte, index) =>
    (Char.ofNat byte.toNat, part.globEligible.getD index false)

def pushLiteral (result : GlobEligibility) (part : ExpandedField) : GlobEligibility :=
  (literalBytes part).foldl (fun result letter =>
    if letter.2 then result.pushEligible [letter.1] else result.pushIneligible [letter.1]) result

/-- The fields that are complete, and the one that is being collected. -/
structure Splitting where
  fields : List GlobEligibility
  current : GlobEligibility
  hasContent : Bool
  deriving DecidableEq, Repr

namespace Splitting

def new : Splitting := ⟨[], .new, false⟩

def isField (splitting : Splitting) : Bool :=
  !splitting.current.text.isEmpty || splitting.hasContent

def complete (splitting : Splitting) : Splitting :=
  if splitting.isField then
    { splitting with
      fields := splitting.fields ++ [splitting.current]
      current := .new
      hasContent := false }
  else splitting

def splitValue (ifs : List Char) (splitting : Splitting) (text : List Char) : Splitting :=
  match text with
  | [] => splitting
  | c :: rest =>
      if ifs.contains c then splitValue ifs splitting.complete (rest.dropWhile (ifs.contains ·))
      else
        splitValue ifs { splitting with
          current := splitting.current.pushIneligible [c]
          hasContent := true } rest
termination_by text.length
decreasing_by
  · exact Nat.lt_succ_of_le (List.dropWhile_suffix _).length_le
  · exact Nat.lt_succ_self _

def addPart (ifs : List Char) (splitting : Splitting) (part : ExpandedField) : Splitting :=
  if part.splittable then splitting.splitValue ifs part.text
  else { splitting with
    current := pushLiteral splitting.current part
    hasContent := true }

end Splitting

def splitFieldsWithEligibility (parts : List ExpandedField) (ifs : List Char) :
    List GlobEligibility :=
  if ifs.isEmpty then
    let result := parts.foldl pushLiteral .new
    if result.text.isEmpty then [] else [result]
  else (parts.foldl (Splitting.addPart ifs) .new).complete.fields

def isFullyQuoted (parts : List (WordPart Char CommandList)) : Bool :=
  (parts.all fun part =>
    match part with
    | .literal _ quoted => quoted != .unquoted
    | _ => true) &&
  parts.any fun part =>
    match part with
    | .literal _ quoted => quoted != .unquoted
    | _ => false

def getIfs (context : Context) : List Char := (context.vars "IFS".toList).getD context.ifs

/-- The paths of a field with a pattern, or its text.  The eligibility of its characters is
not handed over: each of them acts where it can. -/
def expandField (pathnames : Pathnames ε) (field : GlobEligibility) :
    Except ε (List (List Char)) :=
  if field.hasGlobPattern then pathnames (field.text.map fun c => (c, isPatternChar c))
  else .ok [field.text]

def expandWordSplitGlob (pathnames : Pathnames ε) (context : Context) (word : Word CommandList) :
    Except ε (List (List Char) × Context) :=
  if isFullyQuoted word.parts then do
    let (text, context) ← expandWord around context word
    return ([text], context)
  else do
    let (parts, context) ← fieldsOfParts around word.span true context word.parts
    let results ← (splitFieldsWithEligibility parts (getIfs context)).mapM (expandField pathnames)
    return (results.flatten, context)

end Expansion

end OddJobs.Shell
