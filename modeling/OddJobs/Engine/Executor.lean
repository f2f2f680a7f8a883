import OddJobs.Engine.Effect
import OddJobs.Library.Program
import OddJobs.Library.Text
import OddJobs.Storage.State

/-!
# The effect executor

Effects are carried out one at a time.  The events among them are applied to the
shared state at once, and handed back to be logged.  What the adapters, the
subprocesses and the clock answer comes from two streams.
-/

namespace OddJobs

open Library

/-- Errors that can occur during effect execution. -/
inductive ExecuteError where
  | session (error : String)
  | agent (error : String)
  | workspaceNotFound (id : String)
  | shell (error : String)
  deriving DecidableEq, Repr

structure GitOutput where
  success : Bool
  stderr : String

/-- The answers of the outside world to one effect. -/
structure Reply where
  /-- The session of a spawned agent. -/
  spawned : Except String SessionId
  /-- Whether a session or an agent took an input or was killed. -/
  delivered : Except String Unit
  /-- Whether a directory was created, or was not needed. -/
  created : Except String Unit
  git : Except String GitOutput
  /-- Whether a directory was removed, or was absent. -/
  removed : Except String Unit

/-- The state shared with the daemon, and the outside world. -/
structure World where
  state : MaterializedState
  /-- The timers of the scheduler, with the instants at which they fire. -/
  timers : HashMap Nat
  /-- Everything asked of the adapters so far. -/
  requests : List Request
  /-- Every event applied to the state so far. -/
  applied : List Event
  clocks : Nat → Clock
  replies : Nat → Reply

abbrev Exec := Program World ExecuteError

namespace Exec

def readClock : Exec Clock := fun world =>
  (.ok (world.clocks 0), { world with clocks := fun n => world.clocks (n + 1) })

def nextReply : Exec Reply := fun world =>
  (.ok (world.replies 0), { world with replies := fun n => world.replies (n + 1) })

def request (asked : Request) : Exec Unit :=
  Program.modify fun world => { world with requests := world.requests ++ [asked] }

def apply (order : WalkOrder) (event : Event) : Exec Unit := do
  let clock ← readClock
  Program.modify fun world => { world with
    state := world.state.applyEvent order clock event
    applied := world.applied ++ [event] }

end Exec

/-- `AgentSpawnConfig` of a spawn effect.  The job of the agent is empty for a
standalone run. -/
def spawnConfig (agentId : AgentId) (agentName : String) (owner : OwnerId)
    (workspacePath : PathBuf) (input : HashMap String) (command : String)
    (env : List (String × String)) (cwd : Option PathBuf) (sessionConfig : HashMap Value) :
    AgentSpawnConfig :=
  let jobId := match owner with
    | .job id => id
    | .agentRun _ => ""
  { agentId
    agentName
    command
    env
    workspacePath
    cwd
    prompt := (input["prompt"]?).getD ""
    jobName := (input["name"]?).getD jobId
    jobId
    projectRoot := workspacePath
    sessionConfig
    owner }

def shellError {α : Type} (describe : String → String) : Except String α → Exec α
  | .ok value => pure value
  | .error error => Program.throw (.shell (describe error))

namespace Executor

variable (order : WalkOrder)

/-- The directory of a new workspace: a git worktree, or an empty folder.  Of
the file system only the outcome is modelled. -/
def prepareWorkspace (workspaceId : WorkspaceId) (path : PathBuf) (isWorktree : Bool)
    (repoRoot : Option PathBuf) (branch startPoint : Option String) (reply : Reply) :
    Exec Unit := do
  if isWorktree then
    shellError ("failed to create workspace parent dir: " ++ ·) reply.created
    match repoRoot with
    | none => Program.throw (.shell "repo_root required for worktree workspace")
    | some repoRoot =>
        match branch with
        | none => Program.throw (.shell "branch required for worktree workspace")
        | some branch => do
            Exec.request (.git ["-C", repoRoot, "worktree", "add", "-b", branch, path,
              startPoint.getD "HEAD"])
            let output ← shellError id reply.git
            if output.success then pure ()
            else
              let reason := "git worktree add failed: " ++ String.ofList (Text.trim output.stderr.toList)
              Exec.apply order (.workspaceFailed workspaceId reason)
              Program.throw (.shell reason)
  else
    shellError ("failed to create workspace dir: " ++ ·) reply.created

def createWorkspace (workspaceId : WorkspaceId) (path : PathBuf) (owner : Option OwnerId)
    (workspaceType : Option String) (repoRoot : Option PathBuf) (branch startPoint : Option String)
    (reply : Reply) : Exec (Option Event) := do
  Exec.apply order (.workspaceCreated workspaceId path branch owner workspaceType)
  prepareWorkspace order workspaceId path (workspaceType == some "worktree") repoRoot branch
    startPoint reply
  -- only the last of the events is handed back
  Exec.apply order (.workspaceReady workspaceId)
  pure (some (.workspaceReady workspaceId))

def deleteWorkspace (workspaceId : WorkspaceId) (reply : Reply) : Exec (Option Event) := do
  let found ← Program.read fun world => world.state.workspaces[workspaceId]?
  match found with
  | none => Program.throw (.workspaceNotFound workspaceId)
  | some _ => do
      -- the status is transient, it is not an event
      Program.modify fun world =>
        { world with state := world.state.updateWorkspace workspaceId .cleaning }
      shellError ("failed to remove workspace dir: " ++ ·) reply.removed
      Exec.apply order (.workspaceDeleted workspaceId)
      pure (some (.workspaceDeleted workspaceId))

/-- Inner execution logic for a single effect, with the replies it gets. -/
def executeInner (reply : Reply) : Effect → Exec (Option Event)
  | .emit event => do
      Exec.apply order event
      pure (some event)
  | .spawnAgent agentId agentName owner workspacePath input command env cwd sessionConfig => do
      Exec.request (.spawn (spawnConfig agentId agentName owner workspacePath input command env cwd
        sessionConfig))
      match reply.spawned with
      | .error error => Program.throw (.agent error)
      | .ok sessionId => do
          Exec.apply order (.sessionCreated sessionId owner)
          pure (some (.sessionCreated sessionId owner))
  | .sendToAgent agentId input => do
      Exec.request (.sendToAgent agentId input)
      match reply.delivered with
      | .error error => Program.throw (.agent error)
      | .ok () => pure none
  | .killAgent agentId => do
      Exec.request (.killAgent agentId)
      match reply.delivered with
      | .error error => Program.throw (.agent error)
      | .ok () => pure none
  | .sendToSession sessionId input => do
      Exec.request (.sendToSession sessionId input)
      match reply.delivered with
      | .error error => Program.throw (.session error)
      | .ok () => pure none
  | .killSession sessionId => do
      Exec.request (.killSession sessionId)
      match reply.delivered with
      | .error error => Program.throw (.session error)
      | .ok () => pure none
  | .createWorkspace workspaceId path owner workspaceType repoRoot branch startPoint =>
      createWorkspace order workspaceId path owner workspaceType repoRoot branch startPoint reply
  | .deleteWorkspace workspaceId => deleteWorkspace order workspaceId reply
  | .setTimer id duration => do
      let clock ← Exec.readClock
      Program.modify fun world =>
        { world with timers := world.timers.insert id (clock.instant + duration) }
      pure none
  | .cancelTimer id => do
      Program.modify fun world => { world with timers := world.timers.erase id }
      pure none
  | .shell owner step command cwd env => do
      let jobId := match owner with
        | some (.job id) => id
        | _ => ""
      Exec.request (.shell owner jobId step ("set -euo pipefail\n" ++ command) cwd env)
      pure none
  | .pollQueue workerName listCommand cwd => do
      Exec.request (.pollQueue workerName ("set -euo pipefail\n" ++ listCommand) cwd)
      pure none
  | .takeQueueItem workerName takeCommand cwd itemId item => do
      Exec.request (.takeQueueItem workerName ("set -euo pipefail\n" ++ takeCommand) cwd itemId item)
      pure none
  | .notify title message => do
      -- a failure is logged only
      Exec.request (.notify title message)
      pure none

def execute (effect : Effect) : Exec (Option Event) := do
  let reply ← Exec.nextReply
  executeInner order reply effect

/-- Execute effects in order.  Returns the events to be logged; an error
returns none of them. -/
def executeAll : List Effect → Exec (List Event)
  | [] => pure []
  | effect :: rest => do
      let event ← execute order effect
      let events ← executeAll rest
      pure (event.toList ++ events)

end Executor

end OddJobs
