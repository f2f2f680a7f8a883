import OddJobs.Core.Base

/-!
# Records of the materialized state

The data types of the core crate: owners, step records, jobs, agent runs, the
agent index, decisions and sessions.  Unsigned counters and epoch times are
natural numbers.
-/

namespace OddJobs

inductive OwnerId where
  | job (id : JobId)
  | agentRun (id : AgentRunId)
  deriving DecidableEq, Repr, Inhabited

inductive StepStatus where
  | pending
  | running
  | waiting (decisionId : Option String)
  | completed
  | failed
  deriving DecidableEq, Repr, Inhabited

def StepStatus.isWaiting : StepStatus → Bool
  | waiting _ => true
  | _ => false

inductive StepOutcome where
  | running
  | completed
  | failed (error : String)
  | waiting (reason : String)
  deriving DecidableEq, Repr, Inhabited

structure StepRecord where
  name : String
  startedAtMs : Nat
  finishedAtMs : Option Nat
  outcome : StepOutcome
  agentId : Option String
  agentName : Option String
  deriving DecidableEq, Repr, Inhabited

inductive AgentSignalKind where
  | complete
  | escalate
  | continue
  deriving DecidableEq, Repr, Inhabited

structure AgentSignal where
  kind : AgentSignalKind
  message : Option String
  deriving DecidableEq, Repr, Inhabited

/-- Attempt counts, keyed by `trigger:chain_pos`, and the agent's signal. -/
structure ActionTracker where
  actionAttempts : HashMap Nat := ∅
  agentSignal : Option AgentSignal := none

inductive AgentError where
  | unauthorized
  | outOfCredits
  | noInternet
  | rateLimited
  | other (message : String)
  deriving DecidableEq, Repr, Inhabited

/-- `impl Display for AgentError`. -/
def AgentError.display : AgentError → String
  | .unauthorized => "unauthorized"
  | .outOfCredits => "out of credits"
  | .noInternet => "no internet connection"
  | .rateLimited => "rate limited"
  | .other message => message

structure Job where
  id : String
  name : String
  kind : String
  ns : String
  step : String
  stepStatus : StepStatus
  stepStartedAt : Nat
  stepHistory : List StepRecord
  vars : HashMap String
  runbookHash : String
  cwd : PathBuf
  workspaceId : Option WorkspaceId
  workspacePath : Option PathBuf
  sessionId : Option String
  createdAt : Nat
  error : Option String
  actionTracker : ActionTracker
  cancelling : Bool
  totalRetries : Nat
  stepVisits : HashMap Nat
  cronName : Option String
  idleGraceLogSize : Option Nat
  lastNudgeAt : Option Nat

structure Session where
  id : String
  jobId : String
  deriving DecidableEq, Repr, Inhabited

inductive WorkspaceType where
  | folder
  | worktree
  deriving DecidableEq, Repr, Inhabited

inductive WorkspaceStatus where
  | creating
  | ready
  | inUse (by_ : String)
  | cleaning
  | failed (reason : String)
  deriving DecidableEq, Repr, Inhabited

structure Workspace where
  id : String
  path : PathBuf
  branch : Option String
  owner : Option OwnerId
  status : WorkspaceStatus
  workspaceType : WorkspaceType
  createdAtMs : Nat
  deriving DecidableEq, Repr, Inhabited

inductive AgentRunStatus where
  | starting
  | running
  | waiting
  | completed
  | failed
  | escalated
  deriving DecidableEq, Repr, Inhabited

def AgentRunStatus.isTerminal : AgentRunStatus → Bool
  | .completed | .failed => true
  | _ => false

structure AgentRun where
  id : String
  agentName : String
  commandName : String
  ns : String
  cwd : PathBuf
  runbookHash : String
  status : AgentRunStatus
  agentId : Option String
  sessionId : Option String
  error : Option String
  createdAtMs : Nat
  updatedAtMs : Nat
  actionTracker : ActionTracker
  vars : HashMap String
  idleGraceLogSize : Option Nat
  lastNudgeAt : Option Nat

inductive AgentRecordStatus where
  | starting
  | running
  | idle
  | exited
  | gone
  deriving DecidableEq, Repr, Inhabited

structure AgentRecord where
  agentId : String
  agentName : String
  owner : OwnerId
  ns : String
  workspacePath : PathBuf
  sessionId : Option String
  status : AgentRecordStatus
  createdAtMs : Nat
  updatedAtMs : Nat
  deriving DecidableEq, Repr, Inhabited

inductive DecisionSource where
  | question
  | approval
  | gate
  | error
  | idle
  deriving DecidableEq, Repr, Inhabited

structure DecisionOption where
  label : String
  description : Option String
  recommended : Bool
  deriving DecidableEq, Repr, Inhabited

structure Decision where
  id : DecisionId
  jobId : String
  agentId : Option String
  owner : OwnerId
  source : DecisionSource
  context : String
  options : List DecisionOption
  chosen : Option Nat
  message : Option String
  createdAtMs : Nat
  resolvedAtMs : Option Nat
  supersededBy : Option DecisionId
  ns : String
  deriving DecidableEq, Repr, Inhabited

def Decision.isResolved (decision : Decision) : Bool :=
  decision.resolvedAtMs.isSome

end OddJobs
