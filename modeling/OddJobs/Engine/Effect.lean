import OddJobs.Core.Event

/-!
# Effects

The side effects that the handlers ask for.  Durations are in milliseconds.
-/

namespace OddJobs

inductive Effect where
  /-- Emit an event into the system event bus. -/
  | emit (event : Event)
  -- agents
  | spawnAgent (agentId : AgentId) (agentName : String) (owner : OwnerId)
      (workspacePath : PathBuf) (input : HashMap String) (command : String)
      (env : List (String × String)) (cwd : Option PathBuf) (sessionConfig : HashMap Value)
  | sendToAgent (agentId : AgentId) (input : String)
  | killAgent (agentId : AgentId)
  -- sessions
  | sendToSession (sessionId : SessionId) (input : String)
  | killSession (sessionId : SessionId)
  -- workspaces
  | createWorkspace (workspaceId : WorkspaceId) (path : PathBuf) (owner : Option OwnerId)
      (workspaceType : Option String) (repoRoot : Option PathBuf) (branch startPoint : Option String)
  | deleteWorkspace (workspaceId : WorkspaceId)
  -- timers
  | setTimer (id : TimerId) (duration : Nat)
  | cancelTimer (id : TimerId)
  /-- Execute a shell command in the background. -/
  | shell (owner : Option OwnerId) (step command : String) (cwd : PathBuf) (env : HashMap String)
  -- workers
  | pollQueue (workerName listCommand : String) (cwd : PathBuf)
  | takeQueueItem (workerName takeCommand : String) (cwd : PathBuf) (itemId : String) (item : Value)
  | notify (title message : String)

structure AgentSpawnConfig where
  agentId : AgentId
  agentName : String
  command : String
  env : List (String × String)
  workspacePath : PathBuf
  cwd : Option PathBuf
  prompt : String
  jobName : String
  jobId : String
  projectRoot : PathBuf
  sessionConfig : HashMap Value
  owner : OwnerId

/-- What the executor asks of the adapters and of its background tasks. -/
inductive Request where
  | spawn (config : AgentSpawnConfig)
  | sendToAgent (agentId : AgentId) (input : String)
  | killAgent (agentId : AgentId)
  | sendToSession (sessionId : SessionId) (input : String)
  | killSession (sessionId : SessionId)
  | git (args : List String)
  | shell (owner : Option OwnerId) (jobId : JobId) (step command : String) (cwd : PathBuf)
      (env : HashMap String)
  | pollQueue (workerName command : String) (cwd : PathBuf)
  | takeQueueItem (workerName command : String) (cwd : PathBuf) (itemId : String) (item : Value)
  | notify (title message : String)

end OddJobs
