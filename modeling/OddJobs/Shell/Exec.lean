import OddJobs.Shell.Redirect

/-!
# Running commands

The syntax tree is walked, commands are spawned, and what they print is collected in a trace for
each of them.  A record is kept of the commands that have run and of what each one printed.
-/

namespace OddJobs.Shell

open Library

/-! ## Snippets -/

/-- Whether two bytes can begin a character of three or four bytes. -/
def secondFits (first second : UInt8) : Bool :=
  let low := if first = 0xE0 then 0xA0 else if first = 0xF0 then 0x90 else 0x80
  let high := if first = 0xED then 0x9F else if first = 0xF4 then 0x8F else 0xBF
  0xE0 ≤ first && first ≤ 0xF4 && low ≤ second && second ≤ high

def invalidLength : List UInt8 → Nat
  | first :: second :: rest =>
      if secondFits first second then
        if 0xF0 ≤ first ∧ (rest.head?.any fun third => 0x80 ≤ third && third ≤ 0xBF) then 3 else 2
      else 1
  | _ => 1

/-- Decode as many characters as there are bytes, at most. -/
def lossyFrom : Nat → List UInt8 → List Char
  | 0, _ => []
  | fuel + 1, bytes =>
      if bytes = [] then []
      else
        match bytes.toByteArray.utf8DecodeChar? 0 with
        | some c => c :: lossyFrom fuel (bytes.drop c.utf8Size)
        | none => '\uFFFD' :: lossyFrom fuel (bytes.drop (invalidLength bytes))

def fromUtf8Lossy (bytes : List UInt8) : List Char := lossyFrom bytes.length bytes

/-- The longest beginning of a text with at most so many bytes. -/
def takeBytes : Nat → List Char → List Char
  | _, [] => []
  | limit, c :: rest =>
      if c.utf8Size ≤ limit then c :: takeBytes (limit - c.utf8Size) rest else []

/-- Truncate bytes to a snippet of at most `limit` bytes, if there is a limit. -/
def truncateSnippet (bytes : List UInt8) (limit : Option Nat) : Option (List Char) :=
  if bytes = [] then none
  else
    let text := fromUtf8Lossy bytes
    match limit with
    | none => some text
    | some limit => if Text.size text ≤ limit then some text else some (takeBytes limit text)

/-! ## Processes -/

structure Launch where
  name : List Char
  args : List (List Char)
  env : List (List Char × List Char)
  stdio : ProcessStdio
  deriving DecidableEq, Repr

/-- What a process has printed to its pipes, and its exit code if it has one. -/
structure ProcessOutput where
  stdout : List UInt8
  stderr : List UInt8
  code : Option Int
  deriving DecidableEq, Repr

/-- How the external commands behave: whether they can be spawned and take their data, and what
they print on an input. -/
structure Processes (Io : Type) where
  spawn : Launch → Option Io
  writeStdin : Launch → List Char → Option Io
  output : Launch → Option (List UInt8) → Except Io ProcessOutput

structure ShellExecutor (Io : Type) where
  homeDir : Option (List Char)
  user : Option (List Char)
  processId : Nat
  directory : Directory Io
  processes : Processes Io
  pathnames : Pathnames (ExecError Io)
  pipefail : Bool

structure CommandTrace where
  command : List Char
  args : List (List Char)
  exitCode : Int
  stdoutSnippet : Option (List Char)
  stderrSnippet : Option (List Char)
  span : Span
  deriving DecidableEq, Repr

/-- Outcome of executing a command list. -/
structure ExecOutput where
  exitCode : Int
  traces : List CommandTrace
  deriving DecidableEq, Repr

/-- What has run: a command with what it printed to the shell's pipe, or a group, with what
has been written for it where its output is redirected. -/
inductive Ran where
  | command (stdout : List UInt8)
  | group (failed : Bool) (written : Option (List Char)) (inner : List Ran)

structure World where
  context : Context
  ran : List Ran

section Running

variable {Io : Type}

abbrev Run (Io A : Type) := Program World (ExecError Io) A

def inContext {A : Type} (program : Program Context (ExecError Io) A) : Run Io A := fun world =>
  let (result, context) := program world.context
  (result, { world with context })

def record (ran : List Ran) : Run Io Unit := Program.modify fun world =>
  { world with ran := world.ran ++ ran }

/-- Run a program apart: what has run in it is handed back, and its errors too. -/
def apart {A : Type} (program : Run Io A) : Run Io (Except (ExecError Io) A × List Ran) :=
  fun world =>
    let (result, after) := program { world with ran := [] }
    (.ok (result, after.ran), { after with ran := world.ran })

variable (shell : ShellExecutor Io) (limit : Option Nat)
  (substitute : Context → CommandList → Except (ExecError Io) (List Char))
  (body : CommandList → Run Io ExecOutput)

def ShellExecutor.host : Host (ExecError Io) where
  homeDir := shell.homeDir
  user := shell.user
  processId := shell.processId
  undefinedVariable := .undefinedVariable
  parseFailed := .parse
  notCharBoundary := .panic
  executeSubstitution := substitute

/-! ## Simple commands -/

structure ExpandedCommand where
  name : List Char
  args : List (List Char)
  env : List (List Char × List Char)

def expandArgs (args : List (Word CommandList)) :
    Program Context (ExecError Io) (List (List Char)) :=
  match args with
  | [] => pure []
  | arg :: rest => do
      let fields ← expandWordSplitGlobIn (shell.host substitute) shell.pathnames arg
      let later ← expandArgs rest
      return fields ++ later

def expandEnv (env : List (EnvAssignment CommandList)) :
    Program Context (ExecError Io) (List (List Char × List Char)) :=
  match env with
  | [] => pure []
  | assignment :: rest => do
      let value ← expandWordIn (shell.host substitute) assignment.value
      let later ← expandEnv rest
      return (assignment.name, value) :: later

def expandCommand (command : SimpleCommand CommandList) :
    Program Context (ExecError Io) ExpandedCommand := do
  let name ← expandWordIn (shell.host substitute) command.name
  let args ← expandArgs shell substitute command.args
  let env ← expandEnv shell substitute command.env
  return ⟨name, args, env⟩

/-- Spawn a command with its redirections, and write the data for its input.  What it will
read from a pipe is handed back. -/
def spawnCommand (command : SimpleCommand CommandList) (expanded : ExpandedCommand)
    (stdin : Stdio) : Program Context (ExecError Io) (Launch × Option (List Char)) := do
  let (stdio, data) ← applyRedirections (shell.host substitute) shell.directory
    ⟨stdin, .piped, .piped, []⟩ command.redirections
  let launch : Launch := ⟨expanded.name, expanded.args, expanded.env, stdio⟩
  let _ ← Program.ofExcept <| match shell.processes.spawn launch with
    | some source => .error (.spawnFailed expanded.name source command.span)
    | none => .ok ()
  let data := if stdio.stdin = .piped then data else none
  let _ ← Program.ofExcept <| match data.bind (shell.processes.writeStdin launch) with
    | some source => .error (.spawnFailed expanded.name source command.span)
    | none => .ok ()
  return (launch, data)

def waitCommand (launch : Launch) (input : Option (List UInt8)) (span : Span) :
    Except (ExecError Io) ProcessOutput :=
  match shell.processes.output launch input with
  | .error source => .error (.spawnFailed launch.name source span)
  | .ok output => .ok { output with
      stdout := if launch.stdio.stdout = .piped then output.stdout else []
      stderr := if launch.stdio.stderr = .piped then output.stderr else [] }

/-- The trace of a command that has printed so much to the shell's pipes. -/
def traceOf (launch : Launch) (output : ProcessOutput) (span : Span) : CommandTrace where
  command := launch.name
  args := launch.args
  exitCode := output.code.getD (-1)
  stdoutSnippet := truncateSnippet output.stdout limit
  stderrSnippet := truncateSnippet output.stderr limit
  span := span

def executeSimpleCommand (command : SimpleCommand CommandList) :
    Run Io (Int × List CommandTrace) := do
  let expanded ← inContext (expandCommand shell substitute command)
  if expanded.name = [] then
    let _ ← inContext (Program.modify fun context => { context with
      vars := expanded.env.foldl (fun vars assignment name =>
        if name = assignment.1 then some assignment.2 else vars name) context.vars })
    return (0, [⟨[], [], 0, none, none, command.span⟩])
  else
    let (launch, data) ← inContext (spawnCommand shell substitute command expanded .inherit)
    let output ← Program.ofExcept (waitCommand shell launch (data.map bytes) command.span)
    let _ ← record [.command output.stdout]
    return (output.code.getD (-1), [traceOf limit launch output command.span])

/-! ## Jobs -/

/-- Spawn the commands of a job; all but the first read from a pipe. -/
def spawnStages (first : Bool) :
    List (SimpleCommand CommandList × ExpandedCommand) →
      Program Context (ExecError Io) (List (SimpleCommand CommandList × Launch × Option (List Char)))
  | [] => pure []
  | (command, expanded) :: rest => do
      let (launch, data) ← spawnCommand shell substitute command expanded
        (if first then .inherit else .piped)
      let later ← spawnStages false rest
      return (command, launch, data) :: later

def waitStages (relayed : Option (List UInt8)) :
    List (SimpleCommand CommandList × Launch × Option (List Char)) →
      Except (ExecError Io) (List (CommandTrace × List UInt8))
  | [] => .ok []
  | (command, launch, data) :: rest => do
      let piped := if launch.stdio.stdin = .piped then relayed else none
      let output ← waitCommand shell launch ((data.map bytes).or piped) command.span
      let last := rest.isEmpty
      let captured := if last then output.stdout else []
      let trace := traceOf limit launch { output with stdout := captured } command.span
      let later ← waitStages (some output.stdout) rest
      return (trace, captured) :: later

def expandStages : List (SimpleCommand CommandList) →
    Program Context (ExecError Io) (List (SimpleCommand CommandList × ExpandedCommand))
  | [] => pure []
  | command :: rest => do
      let expanded ← expandCommand shell substitute command
      let later ← expandStages rest
      return (command, expanded) :: later

/-- Execute a job, where each command but the last one is connected to the next. -/
def executeJob (job : Job CommandList) : Run Io (Int × List CommandTrace) := do
  let expanded ← inContext (expandStages shell substitute job.commands)
  let spawned ← inContext (spawnStages shell substitute true expanded)
  let stages ← Program.ofExcept (waitStages shell limit none spawned)
  let _ ← record (stages.map fun stage => .command stage.2)
  let codes := stages.map fun stage => stage.1.exitCode
  let code :=
    if shell.pipefail then (codes.reverse.find? (· ≠ 0)).getD 0 else codes.getLast?.getD 0
  return (code, stages.map (·.1))

/-! ## Groups -/

def stdoutOf (traces : List CommandTrace) : List Char :=
  traces.flatMap fun trace => trace.stdoutSnippet.getD []

def stderrOf (traces : List CommandTrace) : List Char :=
  traces.flatMap fun trace => trace.stderrSnippet.getD []

/-- Apply the redirections of a group to its traces.  What has been written for its output is
handed back. -/
def redirectTraces (redirections : List (Redirection CommandList)) (traces : List CommandTrace) :
    Program Context (ExecError Io) (List CommandTrace × Option (List Char)) :=
  if redirections.isEmpty then pure (traces, none)
  else do
    let result ← applyCapturedRedirections (shell.host substitute) shell.directory
      (stdoutOf traces) (stderrOf traces) redirections
    let cleared := traces.map fun trace => { trace with
      stdoutSnippet := if result.stdoutRedirected then none else trace.stdoutSnippet
      stderrSnippet := if result.stderrRedirected then none else trace.stderrSnippet }
    return (cleared, if result.stdoutRedirected then some (stdoutOf traces) else none)

def ExecError.failedCode : ExecError Io → Option Int
  | commandFailed _ code _ => some code
  | _ => none

/-- What a group goes on with: a failing command does not fail the group, but leaves no trace. -/
def groupOutput (result : Except (ExecError Io) ExecOutput) : Except (ExecError Io) ExecOutput :=
  match result with
  | .ok output => .ok output
  | .error error =>
      match error.failedCode with
      | some code => .ok ⟨code, []⟩
      | none => .error error

def failedIn (result : Except (ExecError Io) ExecOutput) : Bool := !result.toOption.isSome

def finishGroup (redirections : List (Redirection CommandList))
    (result : Except (ExecError Io) ExecOutput) (inner : List Ran) :
    Run Io (Int × List CommandTrace) :=
  match groupOutput result with
  | .error error => do
      let _ ← record [.group true none inner]
      Program.throw error
  | .ok output => do
      let (traces, written) ← inContext (redirectTraces shell substitute redirections output.traces)
      let _ ← record [.group (failedIn result) written inner]
      return (output.exitCode, traces)

def executeSubshell (subshell : Subshell CommandList) : Run Io (Int × List CommandTrace) := do
  let context ← Program.read World.context
  let (result, inner) ← apart (body subshell.body)
  let _ ← Program.modify fun world => { world with context }
  finishGroup shell substitute subshell.redirections result inner

def executeBraceGroup (group : BraceGroup CommandList) : Run Io (Int × List CommandTrace) := do
  let (result, inner) ← apart (body group.body)
  finishGroup shell substitute group.redirections result inner

/-! ## Lists -/

def executeCommandItem (item : CommandItem CommandList) : Run Io (Int × List CommandTrace) :=
  if item.background then
    Program.throw (.unsupported "background execution (&)".toList item.span)
  else
    match item.command with
    | .simple command => executeSimpleCommand shell limit substitute command
    | .job job => executeJob shell limit substitute job
    | .subshell subshell => executeSubshell shell substitute body subshell
    | .braceGroup group => executeBraceGroup shell substitute body group

/-- Track an exit code for `$?`. -/
def trackExit (code : Int) : Run Io Unit := Program.modify fun world =>
  { world with context := { world.context with lastExitCode := code } }

/-- Whether a chain goes on with the next command after an exit code. -/
def LogicalOp.goesOn (code : Int) : LogicalOp → Bool
  | and => code == 0
  | or => code != 0

def executeRest (code : Int) : List (LogicalOp × CommandItem CommandList) →
    Run Io (Int × List CommandTrace)
  | [] => pure (code, [])
  | (op, item) :: rest =>
      if op.goesOn code then do
        let (code, traces) ← executeCommandItem shell limit substitute body item
        let _ ← trackExit code
        let (last, later) ← executeRest code rest
        return (last, traces ++ later)
      else executeRest code rest

def executeAndOrList (andOr : AndOrList CommandList) : Run Io (Int × List CommandTrace) := do
  let (code, traces) ← executeCommandItem shell limit substitute body andOr.first
  let _ ← trackExit code
  let (last, later) ← executeRest shell limit substitute body code andOr.rest
  return (last, traces ++ later)

def executeChains (code : Int) : List (AndOrList CommandList) → Run Io ExecOutput
  | [] => pure ⟨code, []⟩
  | andOr :: rest => do
      let (code, traces) ← executeAndOrList shell limit substitute body andOr
      if code ≠ 0 then
        Program.throw (.commandFailed ((traces.getLast?.map (·.command)).getD []) code andOr.span)
      else
        let output ← executeChains code rest
        return { output with traces := traces ++ output.traces }

end Running

section Recursion

variable {Io : Type} (shell : ShellExecutor Io)

def captureOf (result : Except (ExecError Io) ExecOutput) : Except (ExecError Io) (List Char) :=
  result.map fun output => stdoutOf output.traces

/-- Execute a command list.  Groups and substitutions are nested as deep as the stack allows. -/
def executeCommandList : Nat → Option Nat → CommandList → Run Io ExecOutput
  | 0, _, _ => Program.throw .panic
  | stack + 1, limit, list =>
      let substitute (context : Context) (body : CommandList) :=
        captureOf (executeCommandList stack none body ⟨context, []⟩).1
      executeChains shell limit substitute (executeCommandList stack limit) 0 list.commands

def executeCommandListCapture (stack : Nat) (list : CommandList) : Run Io (List Char) := do
  let output ← executeCommandList shell stack none list
  return stdoutOf output.traces

def executeSubstitution (stack : Nat) (context : Context) (body : CommandList) :
    Except (ExecError Io) (List Char) :=
  (executeCommandListCapture shell stack body ⟨context, []⟩).1

end Recursion

end OddJobs.Shell
