import OddJobs.Engine.JobSteps

/-!
# Job creation

What command, cron and worker handlers share to create a job: its name, its
directory, its variables and its workspace are worked out, the job is recorded,
and its first step is started.
-/

namespace OddJobs

open Library

/-- `impl Display for ExecuteError`. -/
def ExecuteError.display : ExecuteError → String
  | .session error => "session error: " ++ error
  | .agent error => "agent error: " ++ error
  | .workspaceNotFound id => "workspace not found: " ++ id
  | .shell error => "shell execution error: " ++ error

/-- At most `n` characters of an id. -/
def short (n : Nat) (id : String) : String := String.ofList (id.toList.take n)

structure CreateJobParams where
  jobId : JobId
  jobName : String
  jobKind : String
  vars : HashMap String
  runbookHash : String
  runbookJson : Option Value
  runbook : Runbook
  ns : String
  cronName : Option String

/-- The variables under their own names and under `var.`, for templates. -/
def lookupVars (order : WalkOrder) (vars : HashMap String) : HashMap String :=
  (order.walk vars.keys).foldl (fun lookup key =>
    let value := (vars[key]?).getD ""
    (lookup.insert key value).insert ("var." ++ key) value) ∅

def hasSubstitution (text : String) : Bool :=
  text.toList.tails.any fun rest => "$(".toList.isPrefixOf rest

/-- The command that evaluates the value of a local: the inner command of a
`$(...)` wrapper, or a `printf` of the value. -/
def localCommand (value : String) : String :=
  let trimmed := Text.trim value.toList
  if "$(".toList.isPrefixOf trimmed && trimmed.getLast? == some ')' then
    String.ofList (trimmed.drop 2).dropLast
  else "printf '%s' \"" ++ value ++ "\""

structure Placement where
  executionPath : PathBuf
  vars : HashMap String
  /-- The id of the workspace, and whether it is a worktree. -/
  workspace : Option (WorkspaceId × Bool)

namespace Handler

variable (outside : Outside)

def jobDisplayName (params : CreateJobParams) (jobDef : JobDef) : String :=
  match jobDef.name with
  | none => params.jobName
  | some template =>
      outside.jobDisplayName
        (outside.interpolate template (lookupVars outside.order params.vars))
        (short 8 params.jobId) params.ns

def invokeDir (vars : HashMap String) : PathBuf := (vars["invoke.dir"]?).getD outside.currentDir

def workspaceIdOf (jobName nonce : String) : WorkspaceId :=
  let name := if "oj-".toList.isPrefixOf jobName.toList then jobName.toList.drop 3
    else jobName.toList
  if nonce.toList.isSuffixOf name then "ws-" ++ String.ofList name
  else "ws-" ++ String.ofList name ++ "-" ++ nonce

def placeJob (params : CreateJobParams) (jobDef : JobDef) (jobName : String) : Placement :=
  match jobDef.cwd, jobDef.workspace with
  | some cwd, none => ⟨outside.interpolate cwd params.vars, params.vars, none⟩
  | none, none => ⟨invokeDir outside params.vars, params.vars, none⟩
  | _, some workspace =>
      let nonce := short 8 params.jobId
      let workspaceId := workspaceIdOf jobName nonce
      let path := outside.stateDir ++ "/workspaces/" ++ workspaceId
      let vars := ((params.vars.insert "workspace.id" workspaceId).insert "workspace.root"
        path).insert "workspace.nonce" nonce
      ⟨path, vars, some (workspaceId, workspace.isGitWorktree)⟩

def evaluateShell (what command : String) (cwd : PathBuf) : Handler String := do
  let reading ← nextReading
  match reading.bash command cwd with
  | .error error => Program.throw (.shellError error)
  | .ok output =>
      if output.success then pure (String.ofList (Text.trimNewlines output.stdout.toList))
      else Program.throw (.shellError (what ++ " evaluation failed: " ++
        String.ofList (Text.trim output.stderr.toList)))

def worktreeVars (params : CreateJobParams) (workspace : Option WorkspaceConfig)
    (vars : HashMap String) : Handler (HashMap String) := do
  let lookup := lookupVars outside.order vars
  match workspace with
  | some (.worktree branch fromRef) => do
      let branchName := match branch with
        | some template => outside.interpolate template lookup
        | none => "ws-" ++ short 8 params.jobId
      let vars := vars.insert "workspace.branch" branchName
      match fromRef with
      | none => pure vars
      | some template => do
          let value := outside.interpolate template lookup
          if hasSubstitution value then do
            let value ← evaluateShell "workspace.ref" ("printf '%s' " ++ value)
              (invokeDir outside vars)
            pure (vars.insert "workspace.ref" value)
          else pure (vars.insert "workspace.ref" value)
  | _ => pure vars

def evaluateLocal (key template : String) (lookup vars : HashMap String) : Handler String :=
  if hasSubstitution template then
    evaluateShell ("local." ++ key) (localCommand (outside.interpolateShell template lookup))
      (invokeDir outside vars)
  else pure (outside.interpolate template lookup)

/-- Evaluate the locals of the given names, each with the earlier ones in scope. -/
def evaluateLocals (locals : HashMap String) : List String → HashMap String → HashMap String →
    Handler (HashMap String)
  | [], _, vars => pure vars
  | key :: rest, lookup, vars => do
      let value ← evaluateLocal outside key ((locals[key]?).getD "") lookup vars
      evaluateLocals locals rest (lookup.insert ("local." ++ key) value)
        (vars.insert ("local." ++ key) value)

def repoRoot (vars : HashMap String) : Handler PathBuf := do
  let reading ← nextReading
  match reading.gitTopLevel (invokeDir outside vars) with
  | .error error => Program.throw (.shellError error)
  | .ok output =>
      if output.success then pure (String.ofList (Text.trim output.stdout.toList))
      else
        let error := "git rev-parse --show-toplevel failed: not a git repository"
        Program.throw (.shellError error)

def workspaceEffects (params : CreateJobParams) (placement : Placement)
    (vars : HashMap String) : Handler (List Effect) :=
  match placement.workspace with
  | none => pure []
  | some (workspaceId, true) => do
      let root ← repoRoot outside vars
      pure [.createWorkspace workspaceId placement.executionPath (some (.job params.jobId))
        (some "worktree") (some root)
        (some ((vars["workspace.branch"]?).getD ("ws-" ++ short 8 params.jobId)))
        (some ((vars["workspace.ref"]?).getD "HEAD"))]
  | some (workspaceId, false) =>
      pure [.createWorkspace workspaceId placement.executionPath (some (.job params.jobId))
        (some "folder") none none none]

/-- What is worked out of a job before it is recorded. -/
structure PreparedJob where
  jobDef : JobDef
  name : String
  placement : Placement
  vars : HashMap String
  effects : List Effect

/-- Work out the name, the place, the variables and the workspace of a job. -/
def prepareJob (params : CreateJobParams) : Handler PreparedJob := do
  let jobDef ← require (.jobDefNotFound params.jobKind) (params.runbook.getJob params.jobKind)
  let name := jobDisplayName outside params jobDef
  let placement := placeJob outside params jobDef name
  let vars ← worktreeVars outside params jobDef.workspace placement.vars
  let vars ← evaluateLocals outside jobDef.locals (outside.order.walk jobDef.locals.keys)
    (lookupVars outside.order vars) vars
  let effects ← workspaceEffects outside params placement vars
  pure { jobDef, name, placement, vars, effects }

def recordJob (params : CreateJobParams) (prepared : PreparedJob) : Handler (List Event) := do
  let clock ← carryOut Exec.readClock
  let loaded := params.runbookJson.toList.map fun json =>
    Effect.emit (.runbookLoaded params.runbookHash 1 json)
  let initialStep := (prepared.jobDef.firstStep.map (·.name)).getD "init"
  Program.modify fun runtime => { runtime with
    runbookCache := runtime.runbookCache.insertIfNew params.runbookHash params.runbook }
  executeAll outside (loaded ++ [.emit (.jobCreated params.jobId params.jobKind prepared.name
    params.runbookHash prepared.placement.executionPath
    (namespaceVars outside.order prepared.vars) initialStep clock.epochMs params.ns
    params.cronName)])

def notifyStart (params : CreateJobParams) (prepared : PreparedJob) : Handler (List Event) :=
  match prepared.jobDef.notify.onStart with
  | none => pure []
  | some template => do
      let vars := ((namespaceVars outside.order prepared.vars).insert "job_id"
        params.jobId).insert "name" prepared.name
      let event ← execute outside (.notify prepared.name (outside.interpolate template vars))
      pure event.toList

/-- Set up the workspace and start the first step.  When the workspace cannot be
set up the job fails. -/
def launchJob (params : CreateJobParams) (prepared : PreparedJob) : Handler (List Event) := do
  let workspace ← carryOut (Program.attempt (Executor.executeAll outside.order prepared.effects))
  match workspace with
  | .error error => do
      let job ← requireJob params.jobId
      failJob outside job error.display
  | .ok workspaceEvents =>
      match prepared.jobDef.firstStep with
      | none => pure workspaceEvents
      | some step => do
          let started ← startStep outside params.jobId step.name prepared.vars
            prepared.placement.executionPath
          pure (workspaceEvents ++ started)

def createAndStartJob (params : CreateJobParams) : Handler (List Event) := do
  let existing ← readState (·.getJob params.jobId)
  if existing.isSome then pure []
  else do
    let prepared ← prepareJob outside params
    let recorded ← recordJob outside params prepared
    let notified ← notifyStart outside params prepared
    let launched ← launchJob outside params prepared
    pure (recorded ++ notified ++ launched)

end Handler

end OddJobs
