import OddJobs.Library.Lines
import OddJobs.Shell.Words

/-!
# Redirections

The redirections of a command are read from left to right, and its files are opened at the end.
The redirections of a group are applied to what its commands have already written.
-/

namespace OddJobs.Shell

open Library

/-- Errors that can occur during shell command execution. -/
inductive ExecError (Io : Type) where
  | commandFailed (command : List Char) (exitCode : Int) (span : Span)
  | spawnFailed (command : List Char) (source : Io) (span : Span)
  | redirectFailed (message : List Char) (source : Io) (span : Span)
  | undefinedVariable (name : List Char) (span : Span)
  | unsupported (feature : List Char) (span : Span)
  | globPattern (pattern message : List Char) (span : Span)
  | parse (error : ParseError)
  /-- The shell panics at a slice that does not begin at a character. -/
  | panic

def Span.default : Span := ⟨0, 0⟩

/-! ## Files -/

/-- The working directory, and how the system answers when files are opened and written. -/
structure Directory (Io : Type) where
  cwd : List Char
  openRead : List Char → Option Io
  openWrite : List Char → Bool → Option Io
  tryClone : List Char → Option Io
  write : List Char → Option Io

/-- A file as it was named when it was opened for writing. -/
structure Opening where
  path : List Char
  append : Bool
  deriving DecidableEq, Repr

namespace Directory

variable {Io : Type} (directory : Directory Io)

def resolvePath (path : List Char) : List Char :=
  if path.head? = some '/' then path
  else if directory.cwd = [] ∨ directory.cwd.getLast? = some '/' then directory.cwd ++ path
  else directory.cwd ++ '/' :: path

def check (refused : Option Io) (message : List Char) (span : Span) :
    Except (ExecError Io) Unit :=
  match refused with
  | some source => .error (.redirectFailed message source span)
  | none => .ok ()

def checkRead (path : List Char) (span : Span) : Except (ExecError Io) Unit :=
  check (directory.openRead (directory.resolvePath path))
    ("cannot open '".toList ++ path ++ "' for reading".toList) span

def openFile (files : List Opening) (path : List Char) (append : Bool) (span : Span) :
    Except (ExecError Io) (List Opening) := do
  check (directory.openWrite (directory.resolvePath path) append)
    ("cannot open '".toList ++ path ++ "' for ".toList ++
      (if append then "appending" else "writing").toList) span
  return files ++ [⟨path, append⟩]

end Directory

/-! ## The redirections of a command -/

/-- Where a standard stream of a command goes. -/
inductive StdioConfig where
  | default
  | file (path : List Char) (append : Bool)
  | null
  | pipedData
  deriving DecidableEq, Repr

/-- The standard streams of a command, and the data for its input. -/
structure StdioConfigs where
  stdin : StdioConfig := .default
  stdout : StdioConfig := .default
  stderr : StdioConfig := .default
  stdinData : Option (List Char) := none
  deriving DecidableEq, Repr

def stripTabs (body : List Char) : List Char :=
  List.intercalate ['\n'] ((Lines.ofText body).map fun line =>
    if line.head? = some '\t' then line.tail else line)

section Redirections

variable {Io : Type} (host : Host (ExecError Io)) (directory : Directory Io)

def readRedirection (configs : StdioConfigs) :
    Redirection CommandList → Program Context (ExecError Io) StdioConfigs
  | .output fd target append => do
      let path ← expandWordIn host target
      let config := StdioConfig.file path append
      if fd.getD 1 = 1 then return { configs with stdout := config }
      else if fd.getD 1 = 2 then return { configs with stderr := config }
      else
        Program.throw (.unsupported
          ("redirection to fd ".toList ++ (toString (fd.getD 1)).toList) target.span)
  | .input fd source => do
      let path ← expandWordIn host source
      if fd.getD 0 = 0 then
        return { configs with
          stdin := .file path false
          stdinData := none }
      else
        Program.throw (.unsupported
          ("input redirection to fd ".toList ++ (toString (fd.getD 0)).toList) source.span)
  | .hereDoc _ _ body strip quoted => do
      let stripped := if strip then stripTabs body else body
      let content ← if quoted then pure stripped else expandHeredocBody host stripped
      return { configs with
        stdin := .pipedData
        stdinData := some content }
  | .hereString _ content => do
      let expanded ← expandWordIn host content
      return { configs with
        stdin := .pipedData
        stdinData := some (expanded ++ ['\n']) }
  | .both append target => do
      let path ← expandWordIn host target
      let config := StdioConfig.file path append
      return { configs with
        stdout := config
        stderr := config }
  | .duplicate source .close _ =>
      if source = 0 then pure { configs with stdin := .null }
      else if source = 1 then pure { configs with stdout := .null }
      else if source = 2 then pure { configs with stderr := .null }
      else pure configs
  | .duplicate source (.fd target) output =>
      let config :=
        if target = 0 then configs.stdin
        else if target = 1 then configs.stdout
        else if target = 2 then configs.stderr
        else .default
      if output then
        if source = 1 then pure { configs with stdout := config }
        else if source = 2 then pure { configs with stderr := config }
        else pure configs
      else if source = 0 then pure { configs with stdin := config }
      else pure configs

def readRedirections (configs : StdioConfigs) :
    List (Redirection CommandList) → Program Context (ExecError Io) StdioConfigs
  | [] => pure configs
  | redirection :: rest => do
      let configs ← readRedirection host configs redirection
      readRedirections configs rest

/-- A standard stream of a process; an output file by its number. -/
inductive Stdio where
  | inherit
  | piped
  | null
  | input (path : List Char)
  | output (number : Nat)
  deriving DecidableEq, Repr

/-- The standard streams of a process, and the files opened for its output. -/
structure ProcessStdio where
  stdin : Stdio
  stdout : Stdio
  stderr : Stdio
  files : List Opening
  deriving DecidableEq, Repr

def applyStdin (config : StdioConfig) (process : ProcessStdio) :
    Except (ExecError Io) ProcessStdio :=
  match config with
  | .default => .ok process
  | .file path _ => do
      directory.checkRead path .default
      return { process with stdin := .input path }
  | .null => .ok { process with stdin := .null }
  | .pipedData => .ok { process with stdin := .piped }

def ProcessStdio.put (process : ProcessStdio) (fd : Nat) (stdio : Stdio) : ProcessStdio :=
  if fd = 1 then { process with stdout := stdio }
  else if fd = 2 then { process with stderr := stdio }
  else process

def applyOutput (fd : Nat) (config : StdioConfig) (process : ProcessStdio) :
    Except (ExecError Io) ProcessStdio :=
  match config with
  | .default => .ok process
  | .file path append => do
      let files ← directory.openFile process.files path append .default
      return { process with files }.put fd (.output process.files.length)
  | .null => .ok (process.put fd .null)
  | .pipedData => .ok process

/-- Apply the configurations of both output streams: one file for both is opened once. -/
def applyOutputs (stdout stderr : StdioConfig) (process : ProcessStdio) :
    Except (ExecError Io) ProcessStdio :=
  let apart : Except (ExecError Io) ProcessStdio := do
    let process ← applyOutput directory 1 stdout process
    applyOutput directory 2 stderr process
  match stdout, stderr with
  | .file path append, .file path' append' =>
      if path = path' ∧ append = append' then do
        let files ← directory.openFile process.files path append .default
        Directory.check (directory.tryClone (directory.resolvePath path))
          ("cannot clone file handle for '".toList ++ path ++ ['\'']) .default
        return { process with
          stdout := .output process.files.length
          stderr := .output process.files.length
          files }
      else apart
  | _, _ => apart

def applyRedirections (process : ProcessStdio) (redirections : List (Redirection CommandList)) :
    Program Context (ExecError Io) (ProcessStdio × Option (List Char)) := do
  let configs ← readRedirections host {} redirections
  let process ← Program.ofExcept (applyStdin directory configs.stdin process)
  let process ← Program.ofExcept (applyOutputs directory configs.stdout configs.stderr process)
  return (process, configs.stdinData)

/-! ## The redirections of a group -/

/-- What has been written to the files of a group, each of which has a number, and which of
the streams have been redirected. -/
structure CapturedRedirection (A : Type) where
  files : List Opening
  writes : List (Nat × A)
  stdoutRedirected : Bool
  stderrRedirected : Bool
  deriving DecidableEq, Repr

namespace CapturedRedirection

variable {A : Type}

def new : CapturedRedirection A := ⟨[], [], false, false⟩

def writeFile (result : CapturedRedirection A) (path : List Char) (append : Bool) (span : Span)
    (outputs : List A) : Except (ExecError Io) (CapturedRedirection A) := do
  let files ← directory.openFile result.files path append span
  let _ ← outputs.mapM fun _ => Directory.check (directory.write (directory.resolvePath path))
    ("cannot write to '".toList ++ path ++ ['\'']) span
  return { result with
    files
    writes := result.writes ++ outputs.map (result.files.length, ·) }

end CapturedRedirection

section Captured

variable {A : Type} (stdout stderr : A)

def applyCapturedRedirection (result : CapturedRedirection A) :
    Redirection CommandList → Program Context (ExecError Io) (CapturedRedirection A)
  | .output fd target append => do
      let path ← expandWordIn host target
      if fd.getD 1 = 1 then
        let result ← Program.ofExcept
          (result.writeFile directory path append target.span [stdout])
        return { result with stdoutRedirected := true }
      else if fd.getD 1 = 2 then
        let result ← Program.ofExcept
          (result.writeFile directory path append target.span [stderr])
        return { result with stderrRedirected := true }
      else
        Program.throw (.unsupported
          ("redirection to fd ".toList ++ (toString (fd.getD 1)).toList) target.span)
  | .both append target => do
      let path ← expandWordIn host target
      let result ← Program.ofExcept
        (result.writeFile directory path append target.span [stdout, stderr])
      return { result with
        stdoutRedirected := true
        stderrRedirected := true }
  | .input .. | .hereDoc .. | .hereString .. | .duplicate .. => pure result

def applyCapturedFrom (result : CapturedRedirection A) :
    List (Redirection CommandList) → Program Context (ExecError Io) (CapturedRedirection A)
  | [] => pure result
  | redirection :: rest => do
      let result ← applyCapturedRedirection host directory stdout stderr result redirection
      applyCapturedFrom result rest

def applyCapturedRedirections (redirections : List (Redirection CommandList)) :
    Program Context (ExecError Io) (CapturedRedirection A) :=
  applyCapturedFrom host directory stdout stderr .new redirections

end Captured

end Redirections

/-! ## A shell without variables -/

def quietHost : Host (ExecError Unit) where
  homeDir := none
  user := none
  processId := 1
  undefinedVariable := .undefinedVariable
  parseFailed := .parse
  notCharBoundary := .panic
  executeSubstitution := fun _ _ => .ok []

def openDirectory : Directory Unit where
  cwd := "/".toList
  openRead := fun _ => none
  openWrite := fun _ _ => none
  tryClone := fun _ => none
  write := fun _ => none

def bareContext : Context where
  vars := fun _ => none
  lastExitCode := 0
  ifs := [' ', '\t', '\n']

end OddJobs.Shell
