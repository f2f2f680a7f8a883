import OddJobs.Engine.Escalation
import OddJobs.Engine.Executor
import OddJobs.Engine.Runbook

/-!
# The runtime of the engine

The state that the handlers share beside the materialized state: who owns an
agent, the runbooks read so far, and the workers and crons that run in this
process.
-/

namespace OddJobs

open Library

inductive RuntimeError where
  | execute (error : ExecuteError)
  | jobNotFound (id : String)
  | commandNotFound (name : String)
  | jobDefNotFound (kind : String)
  | agentNotFound (name : String)
  | promptError (agent message : String)
  | invalidRunDirective (context directive : String)
  | runbookLoadError (message : String)
  | invalidFormat (message : String)
  | stepNotFound (name : String)
  | invalidRequest (message : String)
  | workerNotFound (message : String)
  | cronNotFound (message : String)
  | shellError (message : String)
  deriving DecidableEq, Repr

abbrev HashSet := HashMap Unit

inductive WorkerStatus where
  | running
  | stopped
  deriving DecidableEq, Repr, Inhabited

structure WorkerState where
  projectRoot : PathBuf
  runbookHash : String
  queueName : String
  jobKind : String
  concurrency : Nat
  activeJobs : HashSet
  status : WorkerStatus
  queueType : QueueType
  /-- The queue item of each job. -/
  itemJobMap : HashMap String
  ns : String
  pollInterval : Option String
  /-- Take commands under way; each reserves a slot. -/
  pendingTakes : Nat
  /-- External items that are being taken or worked on. -/
  inflightItems : HashSet

inductive CronRunTarget where
  | job (name : String)
  | agent (name : String)
  deriving DecidableEq, Repr, Inhabited

inductive CronStatus where
  | running
  | stopped
  deriving DecidableEq, Repr, Inhabited

structure CronState where
  projectRoot : PathBuf
  runbookHash : String
  interval : String
  runTarget : CronRunTarget
  status : CronStatus
  ns : String
  concurrency : Nat

/-- What `build_spawn_effects` works out from the agent definition, the files and
the environment: the arguments of the spawn effect. -/
structure SpawnPlan where
  agentId : AgentId
  input : HashMap String
  command : String
  env : List (String × String)
  cwd : PathBuf
  sessionConfig : HashMap Value

structure ShellOutput where
  success : Bool
  stdout : String
  stderr : String
  deriving DecidableEq, Repr, Inhabited

inductive AgentState where
  | working
  | waitingForInput
  | failed (error : AgentError)
  | exited (exitCode : Option Int)
  | sessionGone
  deriving DecidableEq, Repr, Inhabited

structure GateOutput where
  exitCode : Option Int
  stderr : String
  deriving DecidableEq, Repr, Inhabited

/-- What the handlers read from outside the process at one point. -/
structure Reading where
  /-- A fresh id. -/
  uuid : String
  /-- `bash -c` of a command in a directory. -/
  bash : String → PathBuf → Except String ShellOutput
  /-- `git rev-parse --show-toplevel` in a directory. -/
  gitTopLevel : PathBuf → Except String ShellOutput
  /-- The user's environment variables. -/
  userEnv : HashMap String
  plan : Except RuntimeError SpawnPlan
  /-- The runbook file that defines a worker or a cron. -/
  runbook : Except String (Option Runbook)
  /-- What an agent is observed to do; nothing if the adapter does not know it. -/
  agentState : AgentId → Option AgentState := fun _ => none
  /-- The size of the session log of an agent. -/
  sessionLogSize : AgentId → Nat := fun _ => 0
  /-- Whether the multiplexer still has a session. -/
  sessionAlive : SessionId → Bool := fun _ => false
  /-- Whether the process of an agent runs in a session. -/
  processRunning : SessionId → Option AgentDef → Bool := fun _ _ => false
  /-- The last message of an agent, in its session log. -/
  assistantMessage : AgentId → Option String := fun _ => none
  /-- The system time. -/
  epochMs : Nat := 0
  /-- How long an idle agent is waited for, in milliseconds. -/
  idleGraceMs : Nat := 60000
  /-- `sh -c` of a gate command in a directory, or why it could not be run. -/
  gate : String → PathBuf → Except String GateOutput := fun _ _ => .ok ⟨some 0, ""⟩

/-- Pure code that the handlers call: serialization, hashing and templates; the
directories of the process; and the order in which hash maps are walked. -/
structure Outside where
  order : WalkOrder
  stateDir : PathBuf
  currentDir : PathBuf
  encodeRunbook : Runbook → Value
  decodeRunbook : Value → Except String Runbook
  contentHash : Value → String
  interpolate : String → HashMap String → String
  interpolateShell : String → HashMap String → String
  renderValue : Value → String
  jobDisplayName : String → String → String → String
  /-- What a person reads of an escalation of a job. -/
  decisionContext : EscalationTrigger → String → String

structure Runtime where
  world : World
  agentOwners : HashMap OwnerId
  runbookCache : HashMap Runbook
  workerStates : HashMap WorkerState
  cronStates : HashMap CronState
  readings : Nat → Reading

abbrev Handler := Program Runtime RuntimeError

/-! ## Names of timers -/

namespace Timer

def liveness (jobId : JobId) : TimerId := "liveness:" ++ jobId

def exitDeferred (jobId : JobId) : TimerId := "exit-deferred:" ++ jobId

def queueRetry (queueName itemId : String) : TimerId :=
  "queue-retry:" ++ queueName ++ ":" ++ itemId

def cron (cronName ns : String) : TimerId := "cron:" ++ scopedName ns cronName

def queuePoll (workerName ns : String) : TimerId := "queue-poll:" ++ scopedName ns workerName

end Timer

def SCOPE_PREFIXES : List String :=
  ["var.", "invoke.", "workspace.", "local.", "args.", "item."]

def hasScopePrefix (key : String) : Bool :=
  SCOPE_PREFIXES.any fun scope => scope.toList.isPrefixOf key.toList

/-- Namespace bare keys under the `var.` scope. -/
def namespaceVars (order : WalkOrder) (input : HashMap String) : HashMap String :=
  (order.walk input.keys).foldl (fun vars key =>
    vars.insert (if hasScopePrefix key then key else "var." ++ key) ((input[key]?).getD "")) ∅

namespace Handler

variable (outside : Outside)

def carryOut {α : Type} (exec : Exec α) : Handler α := fun runtime =>
  match exec runtime.world with
  | (.ok value, world) => (.ok value, { runtime with world })
  | (.error error, world) => (.error (.execute error), { runtime with world })

def execute (effect : Effect) : Handler (Option Event) :=
  carryOut (Executor.execute outside.order effect)

def executeAll (effects : List Effect) : Handler (List Event) :=
  carryOut (Executor.executeAll outside.order effects)

def readState {α : Type} (view : MaterializedState → α) : Handler α :=
  Program.read fun runtime => view runtime.world.state

def nextReading : Handler Reading := fun runtime =>
  (.ok (runtime.readings 0), { runtime with readings := fun n => runtime.readings (n + 1) })

def require {α : Type} (error : RuntimeError) : Option α → Handler α
  | some value => pure value
  | none => Program.throw error

def requireJob (id : String) : Handler Job := do
  let found ← readState (·.getJob id)
  require (.jobNotFound id) found

def registerAgent (agentId : AgentId) (owner : OwnerId) : Handler Unit :=
  Program.modify fun runtime =>
    { runtime with agentOwners := runtime.agentOwners.insert agentId owner }

def deregisterAgent (agentId : AgentId) : Handler Unit :=
  Program.modify fun runtime => { runtime with agentOwners := runtime.agentOwners.erase agentId }

def cacheRunbook (hash : String) (runbook : Runbook) : Handler Unit :=
  Program.modify fun runtime =>
    { runtime with runbookCache := runtime.runbookCache.insert hash runbook }

/-- Retrieve a runbook by content hash: from the cache, else from the
materialized state. -/
def cachedRunbook (hash : String) : Handler Runbook := do
  let cached ← Program.read fun runtime => runtime.runbookCache[hash]?
  match cached with
  | some runbook => pure runbook
  | none => do
      let stored ← readState fun state => state.runbooks[hash]?
      let stored ← require (.runbookLoadError ("runbook not found for hash: " ++ hash)) stored
      match outside.decodeRunbook stored.data with
      | .error error =>
          Program.throw (.runbookLoadError ("failed to deserialize stored runbook: " ++ error))
      | .ok runbook => do
          cacheRunbook hash runbook
          pure runbook

def updateWorkerState (workerName : String) (update : WorkerState → WorkerState) : Handler Unit :=
  Program.modify fun runtime =>
    { runtime with workerStates := runtime.workerStates.modify workerName update }

def workerState (workerName : String) : Handler (Option WorkerState) :=
  Program.read fun runtime => runtime.workerStates[workerName]?

/-- Re-read the runbook from disk for a running worker.  Returns an event only
when its content has changed. -/
def refreshWorkerRunbook (workerName : String) : Handler (Option Event) := do
  let state ← workerState workerName
  match state with
  | none => pure none
  | some state => do
      let reading ← nextReading
      match reading.runbook with
      | .error error => Program.throw (.runbookLoadError error)
      | .ok none => Program.throw (.runbookLoadError
          ("no runbook found containing worker '" ++ workerName ++ "'"))
      | .ok (some runbook) =>
          let json := outside.encodeRunbook runbook
          let hash := outside.contentHash json
          if state.runbookHash = hash then pure none
          else do
            updateWorkerState workerName fun state => { state with runbookHash := hash }
            cacheRunbook hash runbook
            pure (some (.runbookLoaded hash 1 json))

end Handler

def executionDir (job : Job) : PathBuf := job.workspacePath.getD job.cwd

end OddJobs
