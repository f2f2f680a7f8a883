import OddJobs.Core.Records

/-!
# Events

The facts the daemon writes to its log.  Field for field the events of the
core crate; JSON payloads are the values of `Value`.
-/

namespace OddJobs

/-- A JSON value.  Numbers keep their text. -/
inductive Value where
  | null
  | bool (value : Bool)
  | number (text : String)
  | string (text : String)
  | array (items : List Value)
  | object (fields : List (String × Value))
  deriving Repr, Inhabited

namespace Value

/-- `value.get(key)`: a field of an object. -/
def get (key : String) : Value → Option Value
  | object fields => fields.lookup key
  | _ => none

/-- `value.as_str()`. -/
def asStr : Value → Option String
  | string text => some text
  | _ => none

/-- `value.as_object()`. -/
def asObject : Value → Option (List (String × Value))
  | object fields => some fields
  | _ => none

/-- `Map::insert`: replace the field of that name, or add it.  An object keeps its
fields in the order of their names. -/
def insertField (fields : List (String × Value)) (key : String) (value : Value) :
    List (String × Value) :=
  match fields with
  | [] => [(key, value)]
  | field :: rest =>
      if field.1 = key then (key, value) :: rest
      else if key < field.1 then (key, value) :: field :: rest
      else field :: insertField rest key value

end Value

inductive PromptType where
  | permission
  | idle
  | planApproval
  | question
  | other
  deriving DecidableEq, Repr, Inhabited

structure QuestionOption where
  label : String
  description : Option String
  deriving DecidableEq, Repr, Inhabited

structure QuestionEntry where
  question : String
  header : Option String
  options : List QuestionOption
  multiSelect : Bool
  deriving DecidableEq, Repr, Inhabited

structure QuestionData where
  questions : List QuestionEntry
  deriving DecidableEq, Repr, Inhabited

/-- Events that trigger state transitions in the system. -/
inductive Event where
  -- agent
  | agentWorking (agentId : AgentId) (owner : OwnerId)
  | agentWaiting (agentId : AgentId) (owner : OwnerId)
  | agentFailed (agentId : AgentId) (error : AgentError) (owner : OwnerId)
  | agentExited (agentId : AgentId) (exitCode : Option Int) (owner : OwnerId)
  | agentGone (agentId : AgentId) (owner : OwnerId)
  | agentInput (agentId : AgentId) (input : String)
  | agentSignal (agentId : AgentId) (kind : AgentSignalKind) (message : Option String)
  | agentIdle (agentId : AgentId)
  | agentStop (agentId : AgentId)
  | agentPrompt (agentId : AgentId) (promptType : PromptType)
      (questionData : Option QuestionData) (assistantContext : Option String)
  -- command
  | commandRun (jobId : JobId) (jobName : String) (projectRoot invokeDir : PathBuf)
      (ns command : String) (args : HashMap String)
  -- job
  | jobCreated (id : JobId) (kind name runbookHash : String) (cwd : PathBuf)
      (vars : HashMap String) (initialStep : String) (createdAtEpochMs : Nat) (ns : String)
      (cronName : Option String)
  | jobAdvanced (id : JobId) (step : String)
  | jobUpdated (id : JobId) (vars : HashMap String)
  | jobResume (id : JobId) (message : Option String) (vars : HashMap String) (kill : Bool)
  | jobCancelling (id : JobId)
  | jobCancel (id : JobId)
  | jobDeleted (id : JobId)
  -- runbook
  | runbookLoaded (hash : String) (version : Nat) (runbook : Value)
  -- session
  | sessionCreated (id : SessionId) (owner : OwnerId)
  | sessionInput (id : SessionId) (input : String)
  | sessionDeleted (id : SessionId)
  -- shell
  | shellExited (jobId : JobId) (step : String) (exitCode : Int) (stdout stderr : Option String)
  -- step
  | stepStarted (jobId : JobId) (step : String) (agentId : Option AgentId)
      (agentName : Option String)
  | stepWaiting (jobId : JobId) (step : String) (reason decisionId : Option String)
  | stepCompleted (jobId : JobId) (step : String)
  | stepFailed (jobId : JobId) (step error : String)
  -- system
  | shutdown
  -- timer
  | timerStart (id : TimerId)
  -- workspace
  | workspaceCreated (id : WorkspaceId) (path : PathBuf) (branch : Option String)
      (owner : Option OwnerId) (workspaceType : Option String)
  | workspaceReady (id : WorkspaceId)
  | workspaceFailed (id : WorkspaceId) (reason : String)
  | workspaceDeleted (id : WorkspaceId)
  | workspaceDrop (id : WorkspaceId)
  -- cron
  | cronStarted (cronName : String) (projectRoot : PathBuf)
      (runbookHash interval runTarget ns : String)
  | cronStopped (cronName ns : String)
  | cronOnce (cronName : String) (jobId : JobId) (jobName jobKind : String)
      (agentRunId agentName : Option String) (projectRoot : PathBuf)
      (runbookHash runTarget ns : String)
  | cronFired (cronName : String) (jobId : JobId) (agentRunId : Option String) (ns : String)
  | cronDeleted (cronName ns : String)
  -- worker
  | workerStarted (workerName : String) (projectRoot : PathBuf) (runbookHash queueName : String)
      (concurrency : Nat) (ns : String)
  | workerWake (workerName ns : String)
  | workerPollComplete (workerName : String) (items : List Value)
  | workerTakeComplete (workerName itemId : String) (item : Value) (exitCode : Int)
      (stderr : Option String)
  | workerItemDispatched (workerName itemId : String) (jobId : JobId) (ns : String)
  | workerStopped (workerName ns : String)
  | workerResized (workerName : String) (concurrency : Nat) (ns : String)
  | workerDeleted (workerName ns : String)
  -- queue
  | queuePushed (queueName itemId : String) (data : HashMap String) (pushedAtEpochMs : Nat)
      (ns : String)
  | queueTaken (queueName itemId workerName ns : String)
  | queueCompleted (queueName itemId ns : String)
  | queueFailed (queueName itemId error ns : String)
  | queueDropped (queueName itemId ns : String)
  | queueItemRetry (queueName itemId ns : String)
  | queueItemDead (queueName itemId ns : String)
  -- decision
  | decisionCreated (id : String) (jobId : JobId) (agentId : Option String) (owner : OwnerId)
      (source : DecisionSource) (context : String) (options : List DecisionOption)
      (createdAtMs : Nat) (ns : String)
  | decisionResolved (id : String) (chosen : Option Nat) (message : Option String)
      (resolvedAtMs : Nat) (ns : String)
  -- agent run
  | agentRunCreated (id : AgentRunId) (agentName commandName ns : String) (cwd : PathBuf)
      (runbookHash : String) (vars : HashMap String) (createdAtEpochMs : Nat)
  | agentRunStarted (id : AgentRunId) (agentId : AgentId)
  | agentRunStatusChanged (id : AgentRunId) (status : AgentRunStatus) (reason : Option String)
  | agentRunResume (id : AgentRunId) (message : Option String) (kill : Bool)
  | agentRunDeleted (id : AgentRunId)
  | custom

end OddJobs
