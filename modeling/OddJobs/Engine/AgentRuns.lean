import OddJobs.Engine.AgentActions

/-!
# Standalone agents

The lifecycle of an agent that runs for a command or a cron, without a job: how it is
spawned, what is done when it is idle, has exited, shows a prompt or has run into an error,
and how its run ends.
-/

namespace OddJobs

open Library

namespace Timer

def livenessAgentRun (agentRunId : AgentRunId) : TimerId := "liveness:ar:" ++ agentRunId

def exitDeferredAgentRun (agentRunId : AgentRunId) : TimerId := "exit-deferred:ar:" ++ agentRunId

def cooldownAgentRun (agentRunId : AgentRunId) (trigger : String) (chainPos : Nat) : TimerId :=
  "cooldown:ar:" ++ agentRunId ++ ":" ++ trigger ++ ":" ++ toString chainPos

def idleGraceAgentRun (agentRunId : AgentRunId) : TimerId := "idle-grace:ar:" ++ agentRunId

end Timer

/-- Results from building action effects for a standalone agent. -/
inductive RunEffects where
  | nudge (effects : List Effect)
  | complete
  | fail (error : String)
  | resume (killSession : Option SessionId) (agentName : String) (input : HashMap String)
      (resumeSessionId : Option String)
  | escalate (effects : List Effect)
  | gate (command : String)

def EscalationTrigger.decisionForRun (outside : Outside) (reading : Reading) (run : AgentRun)
    (trigger : EscalationTrigger) : Event :=
  trigger.build reading.uuid (.agentRun run.id) (some (run.agentId.getD ""))
    (outside.decisionContext trigger run.commandName) reading.epochMs run.ns

def escalationEffects (outside : Outside) (reading : Reading) (context : ActionContext)
    (run : AgentRun) (reason : String) : List Effect := [
  .emit (context.escalationTrigger.decisionForRun outside reading run),
  .notify ("Decision needed: " ++ run.commandName)
    ("Agent requires attention (" ++ context.trigger ++ ")"),
  .emit (.agentRunStatusChanged run.id .escalated (some reason)),
  .cancelTimer (Timer.exitDeferredAgentRun run.id)]

def buildActionEffectsForAgentRun (outside : Outside) (reading : Reading)
    (context : ActionContext) (run : AgentRun) : Except RuntimeError RunEffects :=
  let message := context.actionConfig.message
  match context.actionConfig.action with
  | .nudge =>
      match run.sessionId with
      | none => .error (.invalidRequest "no session for nudge")
      | some sessionId =>
          .ok (.nudge [.sendToSession sessionId
            (message.getD "Please continue with the task." ++ "\n")])
  | .done => .ok .complete
  | .fail => .ok (.fail context.trigger)
  | .resume =>
      let useResume := message.isNone || context.actionConfig.append
      let input := match message with
        | some text =>
            if context.actionConfig.append && useResume then run.vars.insert "resume_message" text
            else run.vars.insert "prompt" text
        | none => run.vars
      .ok (.resume run.sessionId context.agentDef.name input (if useResume then run.agentId else none))
  | .escalate => .ok (.escalate (escalationEffects outside reading context run context.trigger))
  | .gate =>
      match context.actionConfig.run with
      | none => .error (.invalidRunDirective ("agent_run " ++ run.id)
          "gate action requires a 'run' field")
      | some command => .ok (.gate command)

namespace Handler

variable (outside : Outside)

/-! ## Spawning -/

def notifyAgentRun (agentRunId : AgentRunId) (agentDef : AgentDef) (agentName : String)
    (input : HashMap String) : Handler (List Event) :=
  match agentDef.notify.onStart with
  | none => pure []
  | some template => do
      let vars := (((namespaceVars outside.order input).insert "agent_run_id" agentRunId).insert
        "name" agentName).insert "agent" agentDef.name
      let event ← execute outside (.notify agentDef.name (outside.interpolate template vars))
      pure event.toList

def spawnStandaloneAgent (agentRunId : AgentRunId) (agentDef : AgentDef) (agentName : String)
    (input : HashMap String) (cwd : PathBuf) : Handler (List Event) := do
  let reading ← nextReading
  match reading.plan with
  | .error error => Program.throw error
  | .ok plan => do
      registerAgent plan.agentId (.agentRun agentRunId)
      let spawned ← carryOut (Program.attempt (Executor.executeAll outside.order [
        .spawnAgent plan.agentId agentName (.agentRun agentRunId) cwd plan.input plan.command
          plan.env (some plan.cwd) plan.sessionConfig,
        .setTimer (Timer.livenessAgentRun agentRunId) 30000]))
      match spawned with
      | .error error => do
          let _ ← carryOut (@Program.attempt _ _ _ ExecuteError (Executor.execute outside.order
            (.emit (.agentRunStatusChanged agentRunId .failed (some error.display)))))
          Program.throw (.execute error)
      | .ok events => do
          let started ← execute outside (.emit (.agentRunStarted agentRunId plan.agentId))
          let notified ← notifyAgentRun outside agentRunId agentDef agentName input
          pure (events ++ started.toList ++ notified)

/-! ## Ending -/

/-- Change an agent run in the shared state; no event says so. -/
def updateRunState (id : AgentRunId) (update : AgentRun → AgentRun) : Handler Unit :=
  Program.modify fun runtime => { runtime with world := { runtime.world with
    state := { runtime.world.state with
      agentRuns := runtime.world.state.agentRuns.modify id update } } }

def buildAgentRunNotifyEffect (run : AgentRun) (agentDef : AgentDef) (template : Option String) :
    Option Effect :=
  template.map fun template =>
    let vars := (((namespaceVars outside.order run.vars).insert "agent_run_id" run.id).insert "name"
      run.commandName).insert "agent" agentDef.name
    let vars := match run.error with
      | some error => vars.insert "error" error
      | none => vars
    .notify agentDef.name (outside.interpolate template vars)

def cleanupStandaloneAgentSession (run : AgentRun) : Handler Unit := do
  match run.agentId with
  | none => pure ()
  | some agentId => deregisterAgent agentId
  match run.sessionId with
  | none => pure ()
  | some sessionId => do
      tryEffect outside (.killSession sessionId)
      tryEffect outside (.emit (.sessionDeleted sessionId))

def cleanupAgentRunWorkspaces (agentRunId : AgentRunId) : Handler Unit := do
  let owned ← readState fun state => (outside.order.walk state.workspaces.keys).filterMap fun key =>
    (state.workspaces[key]?).bind fun workspace =>
      if workspace.owner = some (.agentRun agentRunId) then some workspace.id else none
  Program.forEach (fun id => tryEffect outside (.deleteWorkspace id)) owned

def endAgentRun (run : AgentRun) (status : AgentRunStatus) (reason : Option String) :
    Handler (List Event) := do
  let events ← executeAll outside [
    .emit (.agentRunStatusChanged run.id status reason),
    .cancelTimer (Timer.livenessAgentRun run.id)]
  cleanupStandaloneAgentSession outside run
  cleanupAgentRunWorkspaces outside run.id
  pure events

def completeAgentRun (run : AgentRun) (agentDef : AgentDef) : Handler (List Event) := do
  notifyAgent outside (buildAgentRunNotifyEffect outside run agentDef agentDef.notify.onDone)
  endAgentRun outside run .completed none

/-! ## Actions -/

def runStandaloneGate (run : AgentRun) (agentDef : AgentDef) (command : String) :
    Handler (List Event) := do
  let vars := (((namespaceVars outside.order run.vars).insert "agent_run_id" run.id).insert "name"
    run.commandName).insert "workspace" run.cwd
  let command := outside.interpolateShell command vars
  let reading ← nextReading
  match runGateCommand reading command run.cwd with
  | .ok () => completeAgentRun outside run agentDef
  | .error gateError =>
      executeAll outside (escalationEffects outside reading
        ⟨agentDef, .simple .escalate, "gate_failed", 0, none, none⟩ run gateError)

def executeStandaloneActionEffects (run : AgentRun) (agentDef : AgentDef) (effects : RunEffects) :
    Handler (List Event) :=
  match effects with
  | .nudge effects => do
      let clock ← carryOut Exec.readClock
      updateRunState run.id fun run => { run with lastNudgeAt := some clock.epochMs }
      executeAll outside effects
  | .complete => completeAgentRun outside run agentDef
  | .fail error => do
      notifyAgent outside (buildAgentRunNotifyEffect outside { run with error := some error }
        agentDef agentDef.notify.onFail)
      endAgentRun outside run .failed (some error)
  | .resume killSession agentName input _ => do
      match killSession with
      | some sessionId => tryEffect outside (.killSession sessionId)
      | none => pure ()
      spawnStandaloneAgent outside run.id agentDef agentName input run.cwd
  | .escalate effects => executeAll outside effects
  | .gate command => runStandaloneGate outside run agentDef command

def executeStandaloneAction (run : AgentRun) (context : ActionContext) : Handler (List Event) := do
  let reading ← nextReading
  match buildActionEffectsForAgentRun outside reading context run with
  | .error error => Program.throw error
  | .ok effects => executeStandaloneActionEffects outside run context.agentDef effects

def countRunAttempt (id : AgentRunId) (trigger : String) (chainPos : Nat) : Handler Nat := do
  updateRunState id fun run =>
    { run with actionTracker := run.actionTracker.incrementActionAttempt trigger chainPos }
  let counted ← readState (·.agentRuns[id]?)
  pure ((counted.map (·.actionTracker.getActionAttempt trigger chainPos)).getD 1)

def actStandaloneAfter (run : AgentRun) (context : ActionContext) :
    Option String → Handler (List Event)
  | none => executeStandaloneAction outside run context
  | some cooldown =>
      match parseDuration cooldown with
      | .error error =>
          Program.throw (.invalidRequest ("invalid cooldown '" ++ cooldown ++ "': " ++ error))
      | .ok duration => do
          let _ ← execute outside
            (.setTimer (Timer.cooldownAgentRun run.id context.trigger context.chainPos) duration)
          pure []

def executeStandaloneActionWithAttempts (run : AgentRun) (context : ActionContext) :
    Handler (List Event) := do
  let attemptNum ← countRunAttempt run.id context.trigger context.chainPos
  if context.actionConfig.attempts.isExhausted (attemptNum - 1) then
    executeStandaloneAction outside run { context with
      actionConfig := .simple .escalate
      trigger := context.trigger ++ "_exhausted" }
  else
    actStandaloneAfter outside run context
      (if 1 < attemptNum then context.actionConfig.cooldown else none)

/-! ## Monitoring -/

def runAssistantContext (run : AgentRun) : Handler (Option String) :=
  match run.agentId with
  | none => pure none
  | some agentId => do
      let reading ← nextReading
      pure (reading.assistantMessage agentId)

/-- The agent is at work again: its run need not wait for a person, unless it works only
because it has just been nudged. -/
def handleStandaloneWorking (run : AgentRun) : Handler (List Event) := do
  let _ ← execute outside (.cancelTimer (Timer.idleGraceAgentRun run.id))
  updateRunState run.id fun run => { run with idleGraceLogSize := none }
  if run.status = .escalated then do
    let clock ← carryOut Exec.readClock
    if (run.lastNudgeAt.map fun nudgeAt => decide (clock.epochMs - nudgeAt < 60000)).getD false then
      pure []
    else do
      updateRunState run.id fun run =>
        { run with actionTracker := run.actionTracker.resetActionAttempts }
      executeAll outside [.emit (.agentRunStatusChanged run.id .running (some "agent active"))]
  else pure []

def handleStandaloneMonitorState (run : AgentRun) (agentDef : AgentDef) (state : MonitorState) :
    Handler (List Event) :=
  match state with
  | .working => handleStandaloneWorking outside run
  | .waitingForInput => do
      let assistant ← runAssistantContext run
      executeStandaloneActionWithAttempts outside run
        ⟨agentDef, agentDef.onIdle, "idle", 0, none, assistant⟩
  | .prompting promptType questionData assistant =>
      let trigger := if promptType = .question then "prompt:question" else "prompt"
      executeStandaloneActionWithAttempts outside run
        ⟨agentDef, agentDef.onPrompt, trigger, 0, questionData, assistant⟩
  | .failed message errorType => do
      let assistant ← runAssistantContext run
      executeStandaloneActionWithAttempts outside run
        ⟨agentDef, agentDef.onError.actionFor errorType, message, 0, none, assistant⟩
  | .exited | .gone => do
      let assistant ← runAssistantContext run
      executeStandaloneActionWithAttempts outside run
        ⟨agentDef, agentDef.onDead, "exit", 0, none, assistant⟩

end Handler

end OddJobs
