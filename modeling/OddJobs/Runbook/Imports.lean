import OddJobs.Library.Lines
import OddJobs.Runbook.Directives
import OddJobs.Runbook.Source

/-!
# Imports

An import names a library and may give it an alias.  The files of the library
become one runbook, and its entities are merged into the runbook that imports
it.
-/

namespace OddJobs

open Library

/-! ## Doc comments -/

/-- A comment block: the text up to its first blank line, and the rest. -/
structure FileComment where
  short : List Char
  long : List Char
  deriving DecidableEq, Repr

namespace FileComment

/-- Strip the `# ` or `#` prefix from a comment line. -/
def stripCommentPrefix : List Char → List Char
  | '#' :: ' ' :: rest => rest
  | '#' :: rest => rest
  | _ => []

def isComment (line : List Char) : Bool := line.head? == some '#'

def ofLines (lines : List (List Char)) : FileComment where
  short := ['\n'].intercalate (lines.takeWhile (!·.isEmpty))
  long := ['\n'].intercalate ((lines.dropWhile (!·.isEmpty)).drop 1)

def ofLines? (lines : List (List Char)) : Option FileComment :=
  if lines.isEmpty then none else some (ofLines (lines.map stripCommentPrefix))

def extractFileComment (content : List Char) : Option FileComment :=
  let trimmed := (Lines.ofText content).map Text.trim
  ofLines? ((trimmed.dropWhile List.isEmpty).takeWhile isComment)

def commandName (line : List Char) : Option (List Char) := do
  let rest ← Pattern.literal "command ".toList line
  let rest ← Pattern.literal ['\"'] (Text.trim rest)
  if rest.contains '\"' then some (rest.takeWhile (· != '\"')) else none

/-- The comment block above a line, past the blank lines between them. -/
def commentAbove (above : List (List Char)) : Option FileComment :=
  ofLines? ((above.reverse.dropWhile List.isEmpty).takeWhile isComment).reverse

/-- The comment of each `command "name"` block. -/
def extractBlockComments (content : List Char) : HashMap FileComment :=
  let trimmed := (Lines.ofText content).map Text.trim
  trimmed.zipIdx.foldl (fun comments (line, index) =>
    match commandName line, commentAbove (trimmed.take index) with
    | some name, some comment => comments.insert (String.ofList name) comment
    | _, _ => comments) ∅

def descriptionLine (comment : FileComment) : List Char :=
  let lines := Lines.ofText comment.short
  (lines[1]?.or lines[0]?).getD []

end FileComment

def describeCommand (content : List Char) (name : String) (command : CommandDef) : CommandDef :=
  match command.description,
    ((FileComment.extractBlockComments content)[name]?).or
      (FileComment.extractFileComment content) with
  | none, some comment =>
      if comment.descriptionLine.isEmpty then command
      else { command with description := some (String.ofList comment.descriptionLine) }
  | _, _ => command

/-! ## Merging -/

inductive ImportWarning where
  /-- A local entity overrides an imported entity with the same name. -/
  | localOverride (entityType name source : String)
  /-- An unknown const is provided at the import site. -/
  | unknownConst (source name : String)
  deriving DecidableEq, Repr

section Merge

variable {V : Type}

/-- Put one entity into the target: what is there stays, with a warning. -/
def mergeEntry (entityType importSource : String) (merged : HashMap V × List ImportWarning)
    (entry : String × V) : HashMap V × List ImportWarning :=
  if merged.1.contains entry.1 then
    (merged.1, merged.2 ++ [.localOverride entityType entry.1 importSource])
  else (merged.1.insert entry.1 entry.2, merged.2)

def mergeMap (target source : HashMap V) (entityType importSource : String) :
    HashMap V × List ImportWarning :=
  source.toList.foldl (mergeEntry entityType importSource) (target, [])

end Merge

def prefixed (aliasName name : String) : String := aliasName ++ ":" ++ name

section Prefix

variable {V : Type}

def renames (aliasName : String) (table : HashMap V) : HashMap String :=
  table.map fun name _ => prefixed aliasName name

def renamed (renames : HashMap String) (name : String) : String := (renames[name]?).getD name

def renameKeys (table : HashMap V) (renames : HashMap String) : HashMap V :=
  table.toList.foldl (fun keyed entry => keyed.insert (renamed renames entry.1) entry.2) ∅

def renameRunDirective (jobRenames agentRenames : HashMap String) : RunDirective → RunDirective
  | .job target => .job (renamed jobRenames target)
  | .agent target attach => .agent (renamed agentRenames target) attach
  | .shell line => .shell line

def renameStep (jobRenames agentRenames : HashMap String) (step : StepDef) : StepDef :=
  { step with run := renameRunDirective jobRenames agentRenames step.run }

/-- Prefix all entity names and update internal cross-references. -/
def prefixNames (runbook : SourceRunbook) (aliasName : String) : SourceRunbook :=
  let commandRenames := renames aliasName runbook.commands
  let jobRenames := renames aliasName runbook.jobs
  let agentRenames := renames aliasName runbook.agents
  let queueRenames := renames aliasName runbook.queues
  let workerRenames := renames aliasName runbook.workers
  let cronRenames := renames aliasName runbook.crons
  { runbook with
    commands := (renameKeys runbook.commands commandRenames).map fun name command =>
      { command with
        name
        run := renameRunDirective jobRenames agentRenames command.run }
    jobs := (renameKeys runbook.jobs jobRenames).map fun name job =>
      { job with
        kind := name
        steps := job.steps.map (renameStep jobRenames agentRenames) }
    agents := (renameKeys runbook.agents agentRenames).map fun name agent => { agent with name }
    queues := (renameKeys runbook.queues queueRenames).map fun name queue => { queue with name }
    workers := (renameKeys runbook.workers workerRenames).map fun name worker =>
      { worker with
        name
        queue := renamed queueRenames worker.queue
        job := renamed jobRenames worker.job }
    crons := (renameKeys runbook.crons cronRenames).map fun name cron =>
      { cron with
        name
        run := renameRunDirective jobRenames agentRenames cron.run } }

def underAlias (source : SourceRunbook) : Option String → SourceRunbook
  | none => source
  | some aliasName => prefixNames source aliasName

end Prefix

def mergeRunbook (target source : SourceRunbook) (aliasName : Option String)
    (importSource : String) : SourceRunbook × List ImportWarning :=
  let source := underAlias source aliasName
  let commands := mergeMap target.commands source.commands "command" importSource
  let jobs := mergeMap target.jobs source.jobs "job" importSource
  let agents := mergeMap target.agents source.agents "agent" importSource
  let queues := mergeMap target.queues source.queues "queue" importSource
  let workers := mergeMap target.workers source.workers "worker" importSource
  let crons := mergeMap target.crons source.crons "cron" importSource
  ({ target with
      commands := commands.1
      jobs := jobs.1
      agents := agents.1
      queues := queues.1
      workers := workers.1
      crons := crons.1 },
    commands.2 ++ jobs.2 ++ agents.2 ++ queues.2 ++ workers.2 ++ crons.2)

/-! ## Consts -/

def importLocation (source : String) : String := "import \"" ++ source ++ "\""

def resolveConst (provided : HashMap String) (source : String) (values : ConstValues)
    (entry : String × ConstDef) : Except ParseError ConstValues :=
  match provided[entry.1]?.or entry.2.default with
  | some value => .ok (values.insert entry.1 value)
  | none =>
      .error (.invalidFormat (importLocation source)
        ("missing required const '" ++ entry.1 ++ "'; add const \"" ++ entry.1 ++
          "\" \x7b value = \"...\" \x7d"))

def validateConsts (defs : HashMap ConstDef) (provided : HashMap String) (source : String) :
    Except ParseError (ConstValues × List ImportWarning) := do
  let values ← defs.toList.foldlM (resolveConst provided source) ∅
  let unknown := provided.keys.filter fun name => !defs.contains name
  return (values, unknown.map fun name => .unknownConst source name)

/-! ## Libraries -/

inductive Format where
  | toml
  | hcl
  | json
  deriving DecidableEq, Repr

structure LibraryFile where
  filename : String
  content : List Char
  deriving DecidableEq, Repr

/-- A built-in library: a named collection of files. -/
structure BuiltinLibrary where
  source : String
  files : List LibraryFile
  deriving DecidableEq, Repr

/-- The libraries that the build collects, and the reader of runbook files. -/
structure LibraryReader where
  builtinLibraries : List BuiltinLibrary
  /-- Read a runbook without cross-checking its references. -/
  parseRunbookNoXref : Format → List Char → Except ParseError SourceRunbook

namespace LibraryReader

variable (reader : LibraryReader)

def parseRunbookWithFormat (format : Format) (content : List Char) :
    Except ParseError SourceRunbook := do
  let runbook ← reader.parseRunbookNoXref format content
  validateCrossRefs runbook
  return runbook

def resolveLibrary (source : String) : Except ParseError (List LibraryFile) :=
  match reader.builtinLibraries.find? (·.source == source) with
  | some library => .ok library.files
  | none =>
      .error (.invalidFormat (importLocation source)
        ("unknown library '" ++ source ++ "'; available libraries: " ++
          ", ".intercalate (reader.builtinLibraries.map (·.source))))

def inFile {A : Type} (source filename : String) (result : Except String A) :
    Except ParseError A :=
  result.mapError fun message =>
    .invalidFormat (importLocation (source ++ "/" ++ filename)) message

def collectConst (source filename : String) (defs : HashMap ConstDef)
    (entry : String × ConstDef) : Except ParseError (HashMap ConstDef) :=
  match defs[entry.1]? with
  | none => .ok (defs.insert entry.1 entry.2)
  | some existing =>
      if existing = entry.2 then .ok defs
      else
        .error (.invalidFormat (importLocation source)
          ("conflicting const '" ++ entry.1 ++ "' in library file '" ++ filename ++ "'"))

def collectConsts (source : String) (defs : HashMap ConstDef) (file : LibraryFile) :
    Except ParseError (HashMap ConstDef) := do
  let stripped ← inFile source file.filename (processConstDirectives ∅ file.content)
  let meta_ ← reader.parseRunbookNoXref .hcl stripped
  meta_.consts.toList.foldlM (collectConst source file.filename) defs

def mergeFile (source : String) (values : ConstValues) (merged : SourceRunbook)
    (file : LibraryFile) : Except ParseError SourceRunbook := do
  let interpolated ← inFile source file.filename (interpolateConsts values file.content)
  let runbook ← reader.parseRunbookWithFormat .hcl interpolated
  let described :=
    { runbook.clearMetadata with
      commands := runbook.commands.map (describeCommand file.content) }
  return (mergeRunbook merged described none (source ++ "/" ++ file.filename)).1

def loadImport (source : String) (importDef : ImportDef) :
    Except ParseError (SourceRunbook × List ImportWarning) := do
  let files ← reader.resolveLibrary source
  let defs ← files.foldlM (reader.collectConsts source) ∅
  let (values, warnings) ← validateConsts defs importDef.constValues source
  let merged ← files.foldlM (reader.mergeFile source values) {}
  validateCrossRefs merged
  return (merged, warnings)

def resolveImport (merged : SourceRunbook × List ImportWarning) (entry : String × ImportDef) :
    Except ParseError (SourceRunbook × List ImportWarning) := do
  let (library, constWarnings) ← reader.loadImport entry.1 entry.2
  let (runbook, mergeWarnings) :=
    mergeRunbook merged.1 library entry.2.importAlias entry.1
  return (runbook, merged.2 ++ constWarnings ++ mergeWarnings)

def walkImports (order : WalkOrder) (imports : HashMap ImportDef) :
    List (String × ImportDef) :=
  (order.walk imports.keys).filterMap fun source =>
    (imports[source]?).map fun importDef => (source, importDef)

def parseWithImports (order : WalkOrder) (format : Format) (content : List Char) :
    Except ParseError (SourceRunbook × List ImportWarning) := do
  let runbook ← reader.parseRunbookNoXref format content
  let own := runbook.clearMetadata
  if runbook.imports.isEmpty then
    validateCrossRefs own
    return (own, [])
  let resolved ← (walkImports order runbook.imports).foldlM reader.resolveImport (own, [])
  validateCrossRefs resolved.1
  return resolved

end LibraryReader

end OddJobs
