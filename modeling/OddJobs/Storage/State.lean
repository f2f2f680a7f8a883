import OddJobs.Core.Event
import OddJobs.Core.Job

/-!
# Materialized state

The tables of the storage crate and `apply_event`, the fold that derives them
from the log.  One application sees one reading of the clock and one walking
order of the hash maps.
-/

namespace OddJobs

structure StoredRunbook where
  version : Nat
  data : Value
  deriving Repr, Inhabited

/-- Record of a running worker.  `status` is "running" or "stopped". -/
structure WorkerRecord where
  name : String
  ns : String
  projectRoot : PathBuf
  runbookHash : String
  status : String
  activeJobIds : List String
  queueName : String
  concurrency : Nat
  deriving DecidableEq, Repr, Inhabited

inductive QueueItemStatus where
  | pending
  | active
  | completed
  | failed
  | dead
  deriving DecidableEq, Repr, Inhabited

structure QueueItem where
  id : String
  queueName : String
  data : HashMap String
  status : QueueItemStatus
  workerName : Option String
  pushedAtEpochMs : Nat
  failureCount : Nat

/-- Record of a running cron.  `status` is "running" or "stopped". -/
structure CronRecord where
  name : String
  ns : String
  projectRoot : PathBuf
  runbookHash : String
  status : String
  interval : String
  runTarget : String
  startedAtMs : Nat
  lastFiredAtMs : Option Nat
  deriving DecidableEq, Repr, Inhabited

structure MaterializedState where
  jobs : HashMap Job := ∅
  sessions : HashMap Session := ∅
  workspaces : HashMap Workspace := ∅
  runbooks : HashMap StoredRunbook := ∅
  workers : HashMap WorkerRecord := ∅
  queueItems : HashMap (List QueueItem) := ∅
  crons : HashMap CronRecord := ∅
  decisions : HashMap Decision := ∅
  agentRuns : HashMap AgentRun := ∅
  agents : HashMap AgentRecord := ∅
  projectRoots : HashMap PathBuf := ∅

/-- `items.iter_mut().find(|i| i.id == item_id)`, with an update of the item found. -/
def updateItem (itemId : String) (update : QueueItem → QueueItem) :
    List QueueItem → List QueueItem
  | [] => []
  | item :: rest =>
      if item.id = itemId then update item :: rest else item :: updateItem itemId update rest

def pushItem (item : QueueItem) (items : List QueueItem) : List QueueItem :=
  if items.any (·.id == item.id) then items else items ++ [item]

namespace Job

/-- Whether the most recent step record belongs to the agent. -/
def hasCurrentAgent (agentId : AgentId) (job : Job) : Bool :=
  (job.stepHistory.getLast?).bind (·.agentId) == some agentId

/-- `AgentExited`: skipped once the job has reached a terminal step. -/
def applyAgentExited (exitCode : Option Int) (job : Job) : Job :=
  if job.isTerminal then job
  else if exitCode = some 0 then { job with stepStatus := .completed }
  else
    { job with
      stepStatus := .failed
      error := some ("exit code: " ++ match exitCode with
        | none => "None"
        | some code => "Some(" ++ toString code ++ ")") }

/-- `AgentFailed` and `AgentGone`: skipped once the job has reached a terminal step. -/
def applyAgentLost (message : String) (job : Job) : Job :=
  if job.isTerminal then job
  else { job with stepStatus := .failed, error := some message }

def applyShellExited (epochMs : Nat) (exitCode : Int) (job : Job) : Job :=
  if exitCode = 0 then
    { job with stepStatus := .completed }.finalizeCurrentStep .completed epochMs
  else
    let errorMsg := "shell exit code: " ++ toString exitCode
    { job with stepStatus := .failed, error := some errorMsg }.finalizeCurrentStep
      (.failed errorMsg) epochMs

/-- Skip a `JobAdvanced` when already on this step, unless recovering from
failure. -/
def advanceSkipped (step : String) (job : Job) : Bool :=
  job.step == step && !(job.stepStatus == .failed)

/-- The outcome `JobAdvanced` gives to the record it finishes. -/
def advanceOutcome (step : String) (job : Job) : StepOutcome :=
  if step = "failed" ∨ step = "cancelled" then .failed (job.error.getD "") else .completed

/-- `JobAdvanced`, past the duplicate check. -/
def applyAdvanced (epochMs : Nat) (step : String) (job : Job) : Job :=
  let isFailureTransition := job.stepStatus == .failed
  -- stale error and session are cleared when resuming from a terminal step
  let job :=
    if job.isTerminal && !isTerminalStep step then
      { job with error := none, sessionId := none }
    else job
  let job := job.finalizeCurrentStep (job.advanceOutcome step) epochMs
  let job := { job with step := step, stepStatus := enteredStatus step }
  -- on_fail transitions keep the attempts, so that cycle limits work
  let job := if isFailureTransition then job else job.resetActionAttempts
  let job := job.clearAgentSignal
  if isTerminalStep step then job else (job.recordStepVisit step).pushStep step epochMs

def resumes (step : String) (job : Job) : Bool := job.isTerminal && !isTerminalStep step

/-- What `JobAdvanced` does to each field of the job. -/
theorem applyAdvanced_eq (epochMs : Nat) (step : String) (job : Job) :
    applyAdvanced epochMs step job =
      { job with
        step := step
        stepStatus := enteredStatus step
        error := if job.resumes step then none else job.error
        sessionId := if job.resumes step then none else job.sessionId
        stepHistory :=
          updateOpenRecord
            (fun record => { record with
              finishedAtMs := some epochMs
              outcome := job.advanceOutcome step }) job.stepHistory ++
          if isTerminalStep step then [] else [{
            name := step
            startedAtMs := epochMs
            finishedAtMs := none
            outcome := .running
            agentId := none
            agentName := none }]
        actionTracker := {
          actionAttempts :=
            if job.stepStatus == .failed then job.actionTracker.actionAttempts else ∅
          agentSignal := none }
        stepVisits :=
          if isTerminalStep step then job.stepVisits
          else job.stepVisits.insert step (job.getStepVisits step + 1) } := by
  cases ends : isTerminalStep step with
  | true =>
      cases failing : job.stepStatus == .failed <;>
        simp [applyAdvanced, resumes, ends, failing, finalizeCurrentStep, clearAgentSignal,
          resetActionAttempts, ActionTracker.clearAgentSignal, ActionTracker.resetActionAttempts]
  | false =>
      have succeeds : ∀ other : Job, other.advanceOutcome step = .completed := fun other => by
        have outcome : ¬(step = "failed" ∨ step = "cancelled") := by
          rintro (rfl | rfl) <;> exact absurd ends (by decide)
        simp [advanceOutcome, outcome]
      cases failing : job.stepStatus == .failed <;> cases ended : job.isTerminal <;>
        simp [applyAdvanced, resumes, ends, failing, ended, succeeds, finalizeCurrentStep,
          clearAgentSignal, resetActionAttempts, ActionTracker.clearAgentSignal,
          ActionTracker.resetActionAttempts, pushStep, recordStepVisit, getStepVisits]

def applyStepStarted (agentId : Option AgentId) (agentName : Option String) (job : Job) : Job :=
  let job := { job with stepStatus := .running }
  let job := match agentId with
    | some agentId => job.setCurrentStepAgentId agentId
    | none => job
  let job := match agentName with
    | some agentName => job.setCurrentStepAgentName agentName
    | none => job
  job.updateCurrentStepOutcome .running

/-- The step record a `StepStarted` leaves behind. -/
def startedRecord (agentId : Option AgentId) (agentName : Option String)
    (record : StepRecord) : StepRecord :=
  { record with
    agentId := agentId.or record.agentId
    agentName := agentName.or record.agentName
    outcome := .running }

/-- `StepStarted` is one update of the status and of the open record. -/
theorem applyStepStarted_eq (agentId : Option AgentId) (agentName : Option String) (job : Job) :
    applyStepStarted agentId agentName job =
      { job with
        stepStatus := .running
        stepHistory := updateOpenRecord (startedRecord agentId agentName) job.stepHistory } := by
  have running := fun (update : StepRecord → StepRecord)
      (leavesOpen : ∀ record, (update record).finishedAtMs = record.finishedAtMs) =>
    updateOpenRecord_comp update (fun record => { record with outcome := .running })
      job.stepHistory leavesOpen
  cases agentId with
  | none =>
      cases agentName with
      | none => rfl
      | some agentName =>
          exact congrArg (fun history : List StepRecord =>
            ({ job with stepStatus := .running, stepHistory := history } : Job))
            (running (fun record => { record with agentName := some agentName }) fun _ => rfl)
  | some agentId =>
      cases agentName with
      | none =>
          exact congrArg (fun history : List StepRecord =>
            ({ job with stepStatus := .running, stepHistory := history } : Job))
            (running (fun record => { record with agentId := some agentId }) fun _ => rfl)
      | some agentName =>
          have named := updateOpenRecord_comp
            (fun record => { record with agentId := some agentId })
            (fun record => { record with agentName := some agentName })
            job.stepHistory (fun _ => rfl)
          exact congrArg (fun history : List StepRecord =>
            ({ job with stepStatus := .running, stepHistory := history } : Job))
            ((congrArg (updateOpenRecord fun record => { record with outcome := .running })
              named).trans (running _ fun _ => rfl))

def applyStepWaiting (reason decisionId : Option String) (job : Job) : Job :=
  let job := { job with
    stepStatus := .waiting decisionId
    error := if reason.isSome then reason else job.error }
  job.updateCurrentStepOutcome (.waiting (reason.getD ""))

def applyStepCompleted (epochMs : Nat) (job : Job) : Job :=
  { job with stepStatus := .completed }.finalizeCurrentStep .completed epochMs

def applyStepFailed (epochMs : Nat) (error : String) (job : Job) : Job :=
  { job with stepStatus := .failed, error := some error }.finalizeCurrentStep
    (.failed error) epochMs

def applyUpdated (vars : HashMap String) (job : Job) : Job :=
  { job with vars := job.vars.insertMany vars.toList }

def setSignal (signal : AgentSignal) (job : Job) : Job :=
  { job with actionTracker := { job.actionTracker with agentSignal := some signal } }

end Job

namespace QueueItem

def applyTaken (workerName : String) (item : QueueItem) : QueueItem :=
  { item with status := .active, workerName := some workerName }

def applyCompleted (item : QueueItem) : QueueItem :=
  { item with status := .completed }

def applyFailed (item : QueueItem) : QueueItem :=
  { item with
    failureCount := if item.status = .failed then item.failureCount else item.failureCount + 1
    status := .failed }

def applyRetry (item : QueueItem) : QueueItem :=
  { item with status := .pending, failureCount := 0, workerName := none }

def applyDead (item : QueueItem) : QueueItem :=
  { item with status := .dead }

end QueueItem

namespace AgentRecord

def applyStatus (status : AgentRecordStatus) (epochMs : Nat) (record : AgentRecord) :
    AgentRecord :=
  { record with status, updatedAtMs := epochMs }

def applySessionCreated (owner : OwnerId) (id : SessionId) (record : AgentRecord) :
    AgentRecord :=
  if record.owner = owner ∧ record.sessionId = none then { record with sessionId := some id }
  else record

def applySessionDeleted (id : SessionId) (record : AgentRecord) : AgentRecord :=
  if record.sessionId = some id then { record with sessionId := none } else record

end AgentRecord

namespace AgentRun

def applyStarted (agentId : AgentId) (epochMs : Nat) (run : AgentRun) : AgentRun :=
  { run with status := .running, agentId := some agentId, updatedAtMs := epochMs }

def applyStatusChanged (status : AgentRunStatus) (reason : Option String) (epochMs : Nat)
    (run : AgentRun) : AgentRun :=
  { run with
    status
    error := if reason.isSome then reason else run.error
    updatedAtMs := epochMs }

def setSignal (signal : AgentSignal) (run : AgentRun) : AgentRun :=
  { run with actionTracker := { run.actionTracker with agentSignal := some signal } }

end AgentRun

/-- A new decision dismisses the owner's unresolved ones. -/
def Decision.applySuperseded (owner : OwnerId) (id : DecisionId) (createdAtMs : Nat)
    (decision : Decision) : Decision :=
  if decision.owner = owner ∧ decision.isResolved = false then
    { decision with resolvedAtMs := some createdAtMs, supersededBy := some id }
  else decision

namespace MaterializedState

def getJob (state : MaterializedState) (id : String) : Option Job :=
  match state.jobs[id]? with
  | some job => some job
  | none =>
      match state.jobs.toList.filter fun entry => id.toList.isPrefixOf entry.1.toList with
      | [entry] => some entry.2
      | _ => none

theorem getJob_found {state : MaterializedState} {id : JobId} {job : Job}
    (found : state.jobs[id]? = some job) : state.getJob id = some job := by
  unfold getJob
  rw [found]

def queueItem (state : MaterializedState) (key itemId : String) : Option QueueItem :=
  (state.queueItems[key]?).bind (·.find? (·.id = itemId))

def updateJob (state : MaterializedState) (id : JobId) (update : Job → Job) :
    MaterializedState :=
  { state with jobs := state.jobs.modify id update }

theorem lookup_updateJob (state : MaterializedState) (id other : JobId) (update : Job → Job) :
    (state.updateJob id update).jobs[other]? =
      if id = other then (state.jobs[other]?).map update else state.jobs[other]? :=
  Library.Table.lookup_modify state.jobs id other update

theorem updateJob_missing (state : MaterializedState) {id : JobId} {update : Job → Job}
    (missing : state.jobs[id]? = none) : state.updateJob id update = state := by
  have jobs : state.jobs.modify id update = state.jobs :=
    Library.Table.modify_id state.jobs id fun _ present => nomatch missing.symm.trans present
  simp only [updateJob, jobs]

/-- Route an update to the owning job; agent runs are left to their own events. -/
def updateOwnerJob (state : MaterializedState) (owner : OwnerId) (update : Job → Job) :
    MaterializedState :=
  match owner with
  | .job jobId => state.updateJob jobId update
  | .agentRun _ => state

def updateAgent (state : MaterializedState) (agentId : AgentId) (status : AgentRecordStatus)
    (epochMs : Nat) : MaterializedState :=
  { state with agents := state.agents.modify agentId (·.applyStatus status epochMs) }

def updateWorker (state : MaterializedState) (workerName ns : String)
    (update : WorkerRecord → WorkerRecord) : MaterializedState :=
  { state with workers := state.workers.modify (scopedName ns workerName) update }

def updateItems (state : MaterializedState) (queueName ns : String)
    (update : List QueueItem → List QueueItem) : MaterializedState :=
  { state with queueItems := state.queueItems.modify (scopedName ns queueName) update }

def updateWorkspace (state : MaterializedState) (id : WorkspaceId) (status : WorkspaceStatus) :
    MaterializedState :=
  { state with workspaces := state.workspaces.modify id fun workspace =>
      { workspace with status } }

def recordProjectRoot (state : MaterializedState) (ns : String) (projectRoot : PathBuf) :
    MaterializedState :=
  if ns = "" then state
  else { state with projectRoots := state.projectRoots.insert ns projectRoot }

/-- Terminal steps release the job's workers and its unresolved decisions. -/
def releaseJob (state : MaterializedState) (id : JobId) : MaterializedState :=
  { state with
    workers := state.workers.map fun _ record =>
      { record with activeJobIds := record.activeJobIds.filter (· ≠ id) }
    decisions := state.decisions.filter fun _ decision =>
      decision.jobId ≠ id || decision.isResolved }

def applyJobAdvanced (clock : Clock) (id : JobId) (step : String) (state : MaterializedState) :
    MaterializedState :=
  if (state.jobs[id]?).any (Job.advanceSkipped step) then state
  else
    let advanced := state.updateJob id (Job.applyAdvanced clock.epochMs step)
    if isTerminalStep step then advanced.releaseJob id else advanced

def applyStepStarted (clock : Clock) (jobId : JobId) (agentId : Option AgentId)
    (agentName : Option String) (state : MaterializedState) : MaterializedState :=
  match state.jobs[jobId]? with
  | none => state
  | some job =>
      let state := state.updateJob jobId (Job.applyStepStarted agentId agentName)
      match agentId with
      | none => state
      | some agentId =>
          { state with agents := state.agents.insertIfNew agentId {
              agentId
              agentName := agentName.getD ""
              owner := .job jobId
              ns := job.ns
              workspacePath := job.workspacePath.getD job.cwd
              sessionId := none
              status := .starting
              createdAtMs := clock.epochMs
              updatedAtMs := clock.epochMs } }

def applySessionCreated (id : SessionId) (owner : OwnerId) (state : MaterializedState) :
    MaterializedState :=
  let jobId := match owner with
    | .job jobId => jobId
    | .agentRun _ => ""
  let state := { state with sessions := state.sessions.insert id { id, jobId } }
  let state := match owner with
    | .job jobId => state.updateJob jobId fun job => { job with sessionId := some id }
    | .agentRun runId =>
        { state with agentRuns := state.agentRuns.modify runId fun run =>
            { run with sessionId := some id } }
  { state with agents := state.agents.map fun _ record => record.applySessionCreated owner id }

def applySessionDeleted (id : SessionId) (state : MaterializedState) : MaterializedState :=
  { state with
    sessions := state.sessions.erase id
    jobs := state.jobs.map fun _ job =>
      if job.sessionId = some id then { job with sessionId := none } else job
    agentRuns := state.agentRuns.map fun _ run =>
      if run.sessionId = some id then { run with sessionId := none } else run
    agents := state.agents.map fun _ record => record.applySessionDeleted id }

def applyWorkspaceCreated (clock : Clock) (id : WorkspaceId) (path : PathBuf)
    (branch : Option String) (owner : Option OwnerId) (workspaceType : Option String)
    (state : MaterializedState) : MaterializedState :=
  let state := match owner with
    | some (.job jobId) => state.updateJob jobId fun job =>
        { job with workspacePath := some path, workspaceId := some id }
    | _ => state
  { state with workspaces := state.workspaces.insert id {
      id
      path
      branch
      owner
      status := .creating
      workspaceType := if workspaceType = some "worktree" then .worktree else .folder
      createdAtMs := clock.epochMs } }

/-- The signal goes to the standalone run of the agent, else to the job whose
current step it works on. -/
def applyAgentSignal (order : WalkOrder) (agentId : AgentId) (kind : AgentSignalKind)
    (message : Option String) (state : MaterializedState) : MaterializedState :=
  if kind = .continue then state
  else
    let signal : AgentSignal := { kind, message }
    match Library.Table.findKey? order state.agentRuns fun run => run.agentId == some agentId with
    | some runId =>
        { state with agentRuns := state.agentRuns.modify runId (·.setSignal signal) }
    | none =>
        match Library.Table.findKey? order state.jobs (Job.hasCurrentAgent agentId) with
        | some jobId => state.updateJob jobId (·.setSignal signal)
        | none => state

def applyWorkerStarted (workerName : String) (projectRoot : PathBuf)
    (runbookHash queueName : String) (concurrency : Nat) (ns : String)
    (state : MaterializedState) : MaterializedState :=
  let key := scopedName ns workerName
  let existingJobIds := ((state.workers[key]?).map (·.activeJobIds)).getD []
  let state := state.recordProjectRoot ns projectRoot
  { state with workers := state.workers.insert key {
      name := workerName
      ns
      projectRoot
      runbookHash
      status := "running"
      activeJobIds := existingJobIds
      queueName
      concurrency } }

def applyQueuePushed (queueName itemId : String) (data : HashMap String)
    (pushedAtEpochMs : Nat) (ns : String) (state : MaterializedState) : MaterializedState :=
  let key := scopedName ns queueName
  let items := (state.queueItems[key]?).getD []
  { state with queueItems := state.queueItems.insert key (pushItem {
      id := itemId
      queueName
      data
      status := .pending
      workerName := none
      pushedAtEpochMs
      failureCount := 0 } items) }

def applyCronStarted (clock : Clock) (cronName : String) (projectRoot : PathBuf)
    (runbookHash interval runTarget ns : String) (state : MaterializedState) :
    MaterializedState :=
  let state := state.recordProjectRoot ns projectRoot
  let key := scopedName ns cronName
  let lastFiredAtMs := (state.crons[key]?).bind (·.lastFiredAtMs)
  { state with crons := state.crons.insert key {
      name := cronName
      ns
      projectRoot
      runbookHash
      status := "running"
      interval
      runTarget
      startedAtMs := clock.epochMs
      lastFiredAtMs } }

def applyDecisionCreated (id : String) (jobId : JobId) (agentId : Option String)
    (owner : OwnerId) (source : DecisionSource) (context : String)
    (options : List DecisionOption) (createdAtMs : Nat) (ns : String)
    (state : MaterializedState) : MaterializedState :=
  let state :=
    if state.decisions.contains id then state
    else
      { state with decisions :=
          (state.decisions.map fun _ existing =>
            existing.applySuperseded owner id createdAtMs).insert id {
              id
              jobId
              agentId
              owner
              source
              context
              options
              chosen := none
              message := none
              createdAtMs
              resolvedAtMs := none
              supersededBy := none
              ns } }
  match owner with
  | .job jobId => state.updateJob jobId fun job => { job with stepStatus := .waiting (some id) }
  | .agentRun runId =>
      { state with agentRuns := state.agentRuns.modify runId fun run =>
          { run with status := .waiting } }

def applyAgentRunStarted (clock : Clock) (id : AgentRunId) (agentId : AgentId)
    (state : MaterializedState) : MaterializedState :=
  match state.agentRuns[id]? with
  | none => state
  | some run =>
      { state with
        agentRuns := state.agentRuns.modify id (·.applyStarted agentId clock.epochMs)
        agents := state.agents.insertIfNew agentId {
          agentId
          agentName := run.agentName
          owner := .agentRun id
          ns := run.ns
          workspacePath := run.cwd
          sessionId := none
          status := .running
          createdAtMs := clock.epochMs
          updatedAtMs := clock.epochMs } }

def applyAgentRunStatusChanged (clock : Clock) (id : AgentRunId) (status : AgentRunStatus)
    (reason : Option String) (state : MaterializedState) : MaterializedState :=
  let state := { state with
    agentRuns := state.agentRuns.modify id (·.applyStatusChanged status reason clock.epochMs) }
  if status.isTerminal then
    { state with decisions := state.decisions.filter fun _ decision =>
        decision.owner ≠ .agentRun id || decision.isResolved }
  else state

def applyEvent (order : WalkOrder) (clock : Clock) (state : MaterializedState) :
    Event → MaterializedState
  | .agentWorking agentId owner =>
      (state.updateOwnerJob owner fun job => { job with stepStatus := .running }).updateAgent
        agentId .running clock.epochMs
  | .agentWaiting agentId _ => state.updateAgent agentId .idle clock.epochMs
  | .agentExited agentId exitCode owner =>
      (state.updateOwnerJob owner (Job.applyAgentExited exitCode)).updateAgent
        agentId .exited clock.epochMs
  | .agentFailed agentId error owner =>
      (state.updateOwnerJob owner (Job.applyAgentLost error.display)).updateAgent
        agentId .exited clock.epochMs
  | .agentGone agentId owner =>
      (state.updateOwnerJob owner (Job.applyAgentLost "session terminated unexpectedly")).updateAgent
        agentId .gone clock.epochMs
  | .shellExited jobId _ exitCode _ _ =>
      state.updateJob jobId (Job.applyShellExited clock.epochMs exitCode)
  | .jobCreated id kind name runbookHash cwd vars initialStep createdAtEpochMs ns cronName =>
      { state with jobs := state.jobs.insert id (Job.newWithEpochMs
          { id, name, kind, vars, runbookHash, cwd, initialStep, ns, cronName }
          createdAtEpochMs clock.instant) }
  | .runbookLoaded hash version runbook =>
      { state with runbooks := state.runbooks.insertIfNew hash { version, data := runbook } }
  | .jobAdvanced id step => state.applyJobAdvanced clock id step
  | .stepStarted jobId _ agentId agentName =>
      state.applyStepStarted clock jobId agentId agentName
  | .stepWaiting jobId _ reason decisionId =>
      state.updateJob jobId (Job.applyStepWaiting reason decisionId)
  | .stepCompleted jobId _ => state.updateJob jobId (Job.applyStepCompleted clock.epochMs)
  | .stepFailed jobId _ error => state.updateJob jobId (Job.applyStepFailed clock.epochMs error)
  | .jobCancelling id => state.updateJob id fun job => { job with cancelling := true }
  | .jobDeleted id =>
      { state with
        jobs := state.jobs.erase id
        decisions := state.decisions.filter fun _ decision => decision.jobId ≠ id
        agents := state.agents.filter fun _ record => record.owner ≠ .job id }
  | .sessionCreated id owner => state.applySessionCreated id owner
  | .sessionDeleted id => state.applySessionDeleted id
  | .workspaceCreated id path branch owner workspaceType =>
      state.applyWorkspaceCreated clock id path branch owner workspaceType
  | .workspaceReady id => state.updateWorkspace id .ready
  | .workspaceFailed id reason => state.updateWorkspace id (.failed reason)
  | .workspaceDeleted id => { state with workspaces := state.workspaces.erase id }
  | .jobUpdated id vars => state.updateJob id (Job.applyUpdated vars)
  | .agentSignal agentId kind message => state.applyAgentSignal order agentId kind message
  -- worker events
  | .workerStarted workerName projectRoot runbookHash queueName concurrency ns =>
      state.applyWorkerStarted workerName projectRoot runbookHash queueName concurrency ns
  | .workerItemDispatched workerName _ jobId ns =>
      state.updateWorker workerName ns fun record =>
        if jobId ∈ record.activeJobIds then record
        else { record with activeJobIds := record.activeJobIds ++ [jobId] }
  | .workerStopped workerName ns =>
      state.updateWorker workerName ns fun record => { record with status := "stopped" }
  | .workerResized workerName concurrency ns =>
      state.updateWorker workerName ns fun record => { record with concurrency }
  | .workerDeleted workerName ns =>
      { state with workers := state.workers.erase (scopedName ns workerName) }
  -- queue events
  | .queuePushed queueName itemId data pushedAtEpochMs ns =>
      state.applyQueuePushed queueName itemId data pushedAtEpochMs ns
  | .queueTaken queueName itemId workerName ns =>
      state.updateItems queueName ns (updateItem itemId (·.applyTaken workerName))
  | .queueCompleted queueName itemId ns =>
      state.updateItems queueName ns (updateItem itemId (·.applyCompleted))
  | .queueFailed queueName itemId _ ns =>
      state.updateItems queueName ns (updateItem itemId (·.applyFailed))
  | .queueDropped queueName itemId ns =>
      state.updateItems queueName ns fun items => items.filter (·.id ≠ itemId)
  | .queueItemRetry queueName itemId ns =>
      state.updateItems queueName ns (updateItem itemId (·.applyRetry))
  | .queueItemDead queueName itemId ns =>
      state.updateItems queueName ns (updateItem itemId (·.applyDead))
  -- cron events
  | .cronStarted cronName projectRoot runbookHash interval runTarget ns =>
      state.applyCronStarted clock cronName projectRoot runbookHash interval runTarget ns
  | .cronStopped cronName ns =>
      { state with crons := state.crons.modify (scopedName ns cronName) fun record =>
          { record with status := "stopped" } }
  | .cronFired cronName _ _ ns =>
      { state with crons := state.crons.modify (scopedName ns cronName) fun record =>
          { record with lastFiredAtMs := some clock.epochMs } }
  | .cronDeleted cronName ns =>
      { state with crons := state.crons.erase (scopedName ns cronName) }
  -- decision events
  | .decisionCreated id jobId agentId owner source context options createdAtMs ns =>
      state.applyDecisionCreated id jobId agentId owner source context options createdAtMs ns
  | .decisionResolved id chosen message resolvedAtMs _ =>
      { state with decisions := state.decisions.modify id fun decision =>
          { decision with chosen, message, resolvedAtMs := some resolvedAtMs } }
  -- agent run events
  | .agentRunCreated id agentName commandName ns cwd runbookHash vars createdAtEpochMs =>
      { state with agentRuns := state.agentRuns.insert id {
          id
          agentName
          commandName
          ns
          cwd
          runbookHash
          status := .starting
          agentId := none
          sessionId := none
          error := none
          createdAtMs := createdAtEpochMs
          updatedAtMs := createdAtEpochMs
          actionTracker := {}
          vars
          idleGraceLogSize := none
          lastNudgeAt := none } }
  | .agentRunStarted id agentId => state.applyAgentRunStarted clock id agentId
  | .agentRunStatusChanged id status reason =>
      state.applyAgentRunStatusChanged clock id status reason
  | .agentRunDeleted id =>
      { state with
        agentRuns := state.agentRuns.erase id
        agents := state.agents.filter fun _ record => record.owner ≠ .agentRun id }
  -- only the namespace's project root is kept of a command
  | .commandRun _ _ projectRoot _ ns _ _ => state.recordProjectRoot ns projectRoot
  -- action and signal events, handled by the runtime
  | .custom | .timerStart _ | .sessionInput .. | .agentInput .. | .jobResume ..
  | .jobCancel _ | .agentRunResume .. | .workspaceDrop _ | .workerWake ..
  | .workerPollComplete .. | .workerTakeComplete .. | .agentIdle _ | .agentPrompt ..
  | .agentStop _ | .cronOnce .. | .shutdown => state

theorem recordProjectRoot_jobs (state : MaterializedState) (ns : String) (projectRoot : PathBuf) :
    (state.recordProjectRoot ns projectRoot).jobs = state.jobs := by
  by_cases unnamed : ns = "" <;> simp [recordProjectRoot, unnamed]

/-- Fold `applyEvent` over a list of events.  The application numbered `n` walks
in the order `orders n` and reads the clock `clocks n`. -/
def replay (orders : Nat → WalkOrder) (clocks : Nat → Clock) (state : MaterializedState) :
    Nat → List Event → MaterializedState
  | _, [] => state
  | n, event :: rest =>
      replay orders clocks (state.applyEvent (orders n) (clocks n) event) (n + 1) rest

/-- What every event keeps holds after any log of events. -/
theorem replay_invariant {holds : MaterializedState → Prop}
    (keeps : ∀ order clock state event, holds state → holds (state.applyEvent order clock event))
    (orders : Nat → WalkOrder) (clocks : Nat → Clock) (events : List Event)
    {state : MaterializedState} (n : Nat) (initial : holds state) :
    holds (state.replay orders clocks n events) := by
  induction events generalizing state n with
  | nil => exact initial
  | cons event rest ih => exact ih (n + 1) (keeps (orders n) (clocks n) state event initial)

end MaterializedState

end OddJobs
