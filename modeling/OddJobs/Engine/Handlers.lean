import OddJobs.Engine.Workers

/-!
# Event handling

An event is first applied to the materialized state and then routed to its
handler.  The events that the handler returns go to the log.
-/

namespace OddJobs

open Library

/-- Result of looking up an agent's owner context. -/
inductive OwnerCtx where
  | job (job : Job) (jobId : JobId)
  | agentRun (run : AgentRun) (runId : AgentRunId)
  /-- The owner is terminal, or has another agent by now. -/
  | skip
  /-- No owner registered for the agent. -/
  | unknown

/-- The handlers of agents at work, of commands, of crons and of resumption.
They are not part of this development, and nothing is assumed of them. -/
structure OtherHandlers where
  monitorJob : Job → AgentDef → AgentState → Handler (List Event)
  monitorRun : AgentRun → AgentDef → AgentState → Handler (List Event)
  timer : TimerId → Handler (List Event)
  event : Event → Handler (List Event)

def OtherHandlers.silent : OtherHandlers where
  monitorJob := fun _ _ _ => pure []
  monitorRun := fun _ _ _ => pure []
  timer := fun _ => pure []
  event := fun _ => pure []

/-- Surroundings in which every file holds one runbook and templates have no
variables. -/
def Outside.plain (runbook : Runbook) : Outside where
  order := .byKey
  stateDir := "/state"
  currentDir := "/"
  encodeRunbook := fun _ => .null
  decodeRunbook := fun _ => .ok runbook
  contentHash := fun _ => "hash"
  interpolate := fun template _ => template
  interpolateShell := fun template _ => template
  renderValue := fun _ => ""
  jobDisplayName := fun raw nonce _ => raw ++ "-" ++ nonce
  decisionContext := fun _ _ => ""

/-- The runtime after a start of the daemon, in surroundings that answer well. -/
def Runtime.idle (runbook : Runbook) (state : MaterializedState) : Runtime where
  world := {
    state
    timers := ∅
    requests := []
    applied := []
    clocks := fun _ => ⟨0, 0⟩
    replies := fun _ => ⟨.ok "session", .ok (), .ok (), .ok ⟨true, ""⟩, .ok ()⟩ }
  agentOwners := ∅
  runbookCache := ∅
  workerStates := ∅
  cronStates := ∅
  readings := fun n => {
    uuid := "job" ++ toString n
    bash := fun _ _ => .ok ⟨true, "", ""⟩
    gitTopLevel := fun _ => .ok ⟨true, "/", ""⟩
    userEnv := ∅
    plan := .error (.agentNotFound "")
    runbook := .ok (some runbook) }

/-- The runtime once an event has been applied to the shared state. -/
def Runtime.applying (order : WalkOrder) (event : Event) (runtime : Runtime) : Runtime :=
  { runtime with world := { runtime.world with
      state := runtime.world.state.applyEvent order (runtime.world.clocks 0) event
      applied := runtime.world.applied ++ [event]
      clocks := fun n => runtime.world.clocks (n + 1) } }

namespace Handler

variable (outside : Outside) (others : OtherHandlers)

/-! ## Reports of agents and shells -/

def getOwnerContext (agentId : AgentId) : Handler OwnerCtx := do
  let owner ← Program.read fun runtime => runtime.agentOwners[agentId]?
  match owner with
  | none => pure .unknown
  | some (.job jobId) => do
      let job ← readState (·.getJob jobId)
      match job with
      | none => pure .unknown
      | some job =>
          if job.isTerminal then pure .skip
          -- a stale event of an earlier agent
          else if job.stepAgentId ≠ some agentId then pure .skip
          else pure (.job job jobId)
  | some (.agentRun runId) => do
      let run ← readState fun state => state.agentRuns[runId]?
      match run with
      | none => pure .unknown
      | some run =>
          if run.status.isTerminal then pure .skip
          else if run.agentId ≠ some agentId then pure .skip
          else pure (.agentRun run runId)

def getAgentDef (runbook : Runbook) (job : Job) : Option AgentDef :=
  ((runbook.getJob job.kind).bind (·.getStep job.step)).bind fun stepDef =>
    match stepDef.run with
    | .agent agent _ => runbook.getAgent agent
    | _ => none

def handleAgentStateChanged (agentId : AgentId) (agentState : AgentState) :
    Handler (List Event) := do
  let context ← getOwnerContext agentId
  match context with
  | .job job _ => do
      let runbook ← cachedRunbook outside job.runbookHash
      match getAgentDef runbook job with
      | some agentDef => others.monitorJob job agentDef agentState
      -- the job has left the agent step
      | none => pure []
  | .agentRun run _ => do
      let runbook ← cachedRunbook outside run.runbookHash
      let agentDef ← require (.agentNotFound run.agentName) (runbook.getAgent run.agentName)
      others.monitorRun run agentDef agentState
  | .skip => pure []
  | .unknown => pure []

def handleShellExited (jobId : JobId) (step : String) (exitCode : Int) :
    Handler (List Event) := do
  let job ← requireJob jobId
  if job.step ≠ step then pure []
  else if exitCode = 0 then advanceJob outside job
  else failJob outside job ("shell exit code: " ++ toString exitCode)

def handleJobCancel (jobId : JobId) : Handler (List Event) := do
  let job ← requireJob jobId
  cancelJob outside job

/-! ## Routing -/

def handleTimer (id : TimerId) : Handler (List Event) :=
  match withoutPrefix "queue-retry:" id with
  | some rest => handleQueueRetryTimer outside rest
  | none =>
      match withoutPrefix "queue-poll:" id with
      | some rest => handleQueuePollTimer outside rest
      | none => others.timer id

/-- Populate the in-process cache, so that later events can find the runbook. -/
def handleRunbookLoaded (hash : String) (json : Value) : Handler (List Event) := do
  let cached ← Program.read fun runtime => runtime.runbookCache.contains hash
  if cached then pure []
  else
    match outside.decodeRunbook json with
    | .ok runbook => do
        cacheRunbook hash runbook
        pure []
    | .error _ => pure []

def handleEvent (event : Event) : Handler (List Event) :=
  match event with
  | .agentWorking agentId _ => handleAgentStateChanged outside others agentId .working
  | .agentWaiting agentId _ => handleAgentStateChanged outside others agentId .waitingForInput
  | .agentFailed agentId error _ => handleAgentStateChanged outside others agentId (.failed error)
  | .agentExited agentId exitCode _ =>
      handleAgentStateChanged outside others agentId (.exited exitCode)
  | .agentGone agentId _ => handleAgentStateChanged outside others agentId .sessionGone
  | .agentInput agentId input => do
      let _ ← execute outside (.sendToAgent agentId input)
      pure []
  | .sessionInput id input => do
      let _ ← execute outside (.sendToSession id (input ++ "\n"))
      pure []
  | .shellExited jobId step exitCode _ _ => handleShellExited outside jobId step exitCode
  | .timerStart id => handleTimer outside others id
  | .jobCancel id => handleJobCancel outside id
  | .workspaceDrop id => do
      let _ ← execute outside (.deleteWorkspace id)
      pure []
  | .workerStarted workerName projectRoot runbookHash _ _ ns =>
      handleWorkerStarted outside workerName projectRoot runbookHash ns
  | .workerWake workerName _ => handleWorkerWake outside workerName
  | .workerPollComplete workerName items => handleWorkerPollComplete outside workerName items
  | .workerTakeComplete workerName itemId item exitCode _ =>
      handleWorkerTakeComplete outside workerName itemId item exitCode
  | .workerStopped workerName _ => handleWorkerStopped outside workerName
  | .workerResized workerName concurrency _ => handleWorkerResized outside workerName concurrency
  -- a safety net: the handlers that end a job call it themselves
  | .jobAdvanced id step =>
      if isTerminalStep step then checkWorkerJobComplete outside id step else pure []
  | .queuePushed queueName _ _ _ ns => handleQueuePushed outside queueName ns
  | .runbookLoaded hash _ runbook => handleRunbookLoaded outside hash runbook
  | .commandRun .. | .agentSignal .. | .agentIdle .. | .agentStop .. | .agentPrompt ..
  | .jobResume .. | .cronStarted .. | .cronStopped .. | .cronOnce .. | .jobDeleted ..
  | .agentRunResume .. => others.event event
  | _ => pure []

/-- Process an event through the runtime.  The events returned are sent to the
log, and processed when they are read back. -/
def processEvent (event : Event) : Handler (List Event) := do
  carryOut (Exec.apply outside.order event)
  handleEvent outside others event

theorem processEvent_run (event : Event) (runtime : Runtime) :
    processEvent outside others event runtime =
      handleEvent outside others event (runtime.applying outside.order event) := rfl

end Handler

end OddJobs
