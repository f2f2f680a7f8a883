import OddJobs.Engine.Completion
import OddJobs.Engine.Steps

/-!
# Job lifecycle management

Starting a step, and leaving it because it is done, because it failed or because
the job is cancelled.  Each handler returns the events to be logged.
-/

namespace OddJobs

open Library

def Job.stepAgentId (job : Job) : Option AgentId :=
  (job.stepHistory.reverse.find? (·.name == job.step)).bind (·.agentId)

namespace Handler

variable (outside : Outside)

def emitNotify (job : Job) (template : Option String) : Handler (List Event) :=
  match template with
  | none => pure []
  | some template => do
      let vars := ((namespaceVars outside.order job.vars).insert "job_id" job.id).insert "name"
        job.name
      let vars := match job.error with
        | some error => vars.insert "error" error
        | none => vars
      let event ← execute outside (.notify job.name (outside.interpolate template vars))
      pure event.toList

def buildAgentNotifyEffect (job : Job) (agentDef : AgentDef) (template : Option String) :
    Option Effect :=
  template.map fun template =>
    let vars := ((((namespaceVars outside.order job.vars).insert "job_id" job.id).insert "name"
      job.name).insert "agent" agentDef.name).insert "step" job.step
    let vars := match job.error with
      | some error => vars.insert "error" error
      | none => vars
    .notify agentDef.name (outside.interpolate template vars)

def spawnAgent (jobId : JobId) (agentName : String) : Handler (List Event) := do
  let job ← requireJob jobId
  let runbook ← cachedRunbook outside job.runbookHash
  let agentDef ← require (.agentNotFound agentName) (runbook.getAgent agentName)
  let reading ← nextReading
  match reading.plan with
  | .error error => Program.throw error
  | .ok plan => do
      registerAgent plan.agentId (.job jobId)
      let events ← executeAll outside [
        .spawnAgent plan.agentId agentName (.job jobId) (executionDir job) plan.input plan.command
          plan.env (some plan.cwd) plan.sessionConfig,
        .setTimer (Timer.liveness jobId) 30000,
        .emit (.stepStarted jobId job.step (some plan.agentId) (some agentName))]
      match buildAgentNotifyEffect outside job agentDef agentDef.notify.onStart with
      | none => pure events
      | some effect => do
          let event ← execute outside effect
          pure (events ++ event.toList)

def shellEnv (job : Job) (userEnv : HashMap String) : HashMap String :=
  let env : HashMap String := ∅
  let env := if job.ns = "" then env else env.insert "OJ_NAMESPACE" job.ns
  userEnv.toList.foldl (fun env entry => env.insertIfNew entry.1 entry.2) env

def runStep (job : Job) (jobId : JobId) (stepDef : StepDef) (stepName : String)
    (input : HashMap String) (workspacePath : PathBuf) : Handler (List Event) :=
  match stepDef.run with
  | .shell command => do
      let vars := (((namespaceVars outside.order input).insert "job_id" jobId).insert "name"
        job.name).insert "workspace" workspacePath
      let reading ← nextReading
      executeAll outside [.shell (some (.job jobId)) stepName (outside.interpolateShell command vars)
        workspacePath (shellEnv job reading.userEnv)]
  | .agent agent _ => spawnAgent outside jobId agent
  | .job nested => Program.throw
      (.invalidRunDirective ("step " ++ stepName) ("nested job (" ++ nested ++ ")"))

def circuitBreakerError (stepName : String) (visits : Nat) : String :=
  "circuit breaker: step '" ++ stepName ++ "' entered " ++ toString visits ++ " times (limit " ++
    toString MAX_STEP_VISITS ++ ")"

/-- Start a step, unless it has been entered too often: then the job fails. -/
def startStep (jobId : JobId) (stepName : String) (input : HashMap String)
    (workspacePath : PathBuf) : Handler (List Event) := do
  let job ← requireJob jobId
  let runbook ← cachedRunbook outside job.runbookHash
  let jobDef ← require (.jobDefNotFound job.kind) (runbook.getJob job.kind)
  -- counted when `JobAdvanced` is applied, so this visit is among them
  let visits := job.getStepVisits stepName
  if MAX_STEP_VISITS < visits then do
    let failed ← executeAll outside
      (Steps.failureEffects job (circuitBreakerError stepName visits))
    let notified ← emitNotify outside job jobDef.notify.onFail
    pure (failed ++ notified)
  else do
    let stepDef ← require (.jobNotFound ("step " ++ stepName ++ " not found"))
      (jobDef.getStep stepName)
    let started ← executeAll outside (Steps.stepStartEffects jobId stepName)
    let ran ← runStep outside job jobId stepDef stepName input workspacePath
    pure (started ++ ran)

/-- Leaving an agent step: its timers are cancelled, the agent is forgotten and
its session killed.  None of the events is handed back. -/
def leaveAgentStep (job : Job) : Handler Unit := do
  let _ ← execute outside (.cancelTimer (Timer.liveness job.id))
  let _ ← execute outside (.cancelTimer (Timer.exitDeferred job.id))
  match job.stepAgentId with
  | some agentId => deregisterAgent agentId
  | none => pure ()
  match job.sessionId with
  | some sessionId => do
      let _ ← execute outside (.killSession sessionId)
      let _ ← execute outside (.emit (.sessionDeleted sessionId))
      pure ()
  | none => pure ()

def isAgentStep (stepDef : Option StepDef) : Bool :=
  (stepDef.map (·.run.isAgent)).getD false

def leaveStep (job : Job) (stepDef : Option StepDef) : Handler Unit :=
  if isAgentStep stepDef then leaveAgentStep outside job else pure ()

def workspaceCleanupEffects (job : Job) : Handler (List Effect) := do
  let owned ← readState fun state =>
    (Table.findKey? outside.order state.workspaces fun workspace =>
      workspace.owner == some (.job job.id)).bind fun key => (state.workspaces[key]?).map (·.id)
  match job.workspaceId.or owned with
  | none => pure []
  | some workspaceId => do
      let «exists» ← readState (·.workspaces.contains workspaceId)
      pure (if «exists» then [.deleteWorkspace workspaceId] else [])

/-- The notification of a finished job; a runbook that cannot be read is no error. -/
def notifyDone (job : Job) : Handler (List Event) := do
  let runbook ← Program.attempt (cachedRunbook outside job.runbookHash)
  match runbook with
  | .error _ => pure []
  | .ok runbook =>
      match runbook.getJob job.kind with
      | none => pure []
      | some jobDef => emitNotify outside job jobDef.notify.onDone

def completeJob (job : Job) : Handler (List Event) := do
  let cleanup ← workspaceCleanupEffects outside job
  let events ← executeAll outside (Steps.completionEffects job ++ cleanup)
  let settled ← checkWorkerJobComplete outside job.id "done"
  let notified ← notifyDone outside job
  pure (events ++ settled ++ notified)

def routeTo (job : Job) (transition : List Effect) (target : String) : Handler (List Event) := do
  let moved ← executeAll outside transition
  let started ← startStep outside job.id target job.vars (executionDir job)
  pure (moved ++ started)

/-- Move to the terminal step `done` and complete the job. -/
def finishJob (job : Job) : Handler (List Event) := do
  let moved ← executeAll outside (Steps.stepTransitionEffects job "done")
  let completed ← completeJob outside job
  pure (moved ++ completed)

def terminateCancelled (job : Job) : Handler (List Event) := do
  let cleanup ← workspaceCleanupEffects outside job
  let events ← executeAll outside (Steps.cancellationEffects job ++ cleanup)
  let settled ← checkWorkerJobComplete outside job.id "cancelled"
  pure (events ++ settled)

def terminateFailed (job : Job) (error : String) : Handler (List Event) := do
  let events ← executeAll outside (Steps.failureEffects job error)
  let settled ← checkWorkerJobComplete outside job.id "failed"
  pure (events ++ settled)

/-- Follow the `on_done` of a step. -/
def advanceTo (job : Job) (jobDef : Option JobDef) (nextStep : String) : Handler (List Event) := do
  let moved ← executeAll outside (Steps.stepTransitionEffects job nextStep)
  let hasStepDef := (jobDef.bind (·.getStep nextStep)).isSome
  let isTerminal := nextStep == "done" || nextStep == "failed"
  let rest ←
    if !hasStepDef && isTerminal then completeJob outside job
    else startStep outside job.id nextStep job.vars (executionDir job)
  pure (moved ++ rest)

def advanceJob (job : Job) : Handler (List Event) := do
  if job.isTerminal then completeJob outside job
  else
    let runbook ← cachedRunbook outside job.runbookHash
    let jobDef := runbook.getJob job.kind
    let currentStepDef := jobDef.bind (·.getStep job.step)
    leaveStep outside job currentStepDef
    -- the step is completed, but the event is not handed back
    let _ ← execute outside (.emit (.stepCompleted job.id job.step))
    match currentStepDef.bind (·.onDone) with
    | some transition => advanceTo outside job jobDef transition.stepName
    | none =>
        match jobDef.bind (·.onDone) with
        | some onDone =>
            if job.step ≠ onDone.stepName then
              routeTo outside job (Steps.stepTransitionEffects job onDone.stepName) onDone.stepName
            else finishJob outside job
        | none =>
            if job.cancelling then terminateCancelled outside job
            else finishJob outside job

def failJob (job : Job) (error : String) : Handler (List Event) := do
  let runbook ← cachedRunbook outside job.runbookHash
  let jobDef := runbook.getJob job.kind
  let currentStepDef := jobDef.bind (·.getStep job.step)
  leaveStep outside job currentStepDef
  match currentStepDef.bind (·.onFail) with
  | some onFail =>
      routeTo outside job (Steps.failureTransitionEffects job onFail.stepName error) onFail.stepName
  | none =>
      match jobDef.bind (·.onFail) with
      | some onFail =>
          if job.step ≠ onFail.stepName then
            routeTo outside job (Steps.failureTransitionEffects job onFail.stepName error)
              onFail.stepName
          else terminateFailed outside job error
      | none => do
          let events ← terminateFailed outside job error
          let notified ← match jobDef with
            | some jobDef => emitNotify outside job jobDef.notify.onFail
            | none => pure []
          pure (events ++ notified)

def cancelTo (job : Job) (target : String) : Handler (List Event) := do
  let cancelling ← execute outside (.emit (.jobCancelling job.id))
  let routed ← routeTo outside job (Steps.cancellationTransitionEffects job target) target
  pure (cancelling.toList ++ routed)

/-- Cancel a running job; nothing happens to one that is terminal or already
being cancelled. -/
def cancelJob (job : Job) : Handler (List Event) := do
  if job.isTerminal || job.cancelling then pure []
  else
    let runbook ← cachedRunbook outside job.runbookHash
    let jobDef := runbook.getJob job.kind
    let currentStepDef := jobDef.bind (·.getStep job.step)
    leaveStep outside job currentStepDef
    match currentStepDef.bind (·.onCancel) with
    | some onCancel => cancelTo outside job onCancel.stepName
    | none =>
        match jobDef.bind (·.onCancel) with
        | some onCancel =>
            if job.step ≠ onCancel.stepName then cancelTo outside job onCancel.stepName
            else terminateCancelled outside job
        | none => terminateCancelled outside job

end Handler

end OddJobs
