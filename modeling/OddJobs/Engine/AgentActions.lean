import OddJobs.Engine.Cleanup
import OddJobs.Engine.Handlers

/-!
# Agent actions

What the engine does about an agent that is idle, has exited, shows a prompt or has
run into an error.  The action is taken from the definition of the agent; its attempts
are counted, and between attempts there may be a cooldown.
-/

namespace OddJobs

open Library

inductive MonitorState where
  | working
  | waitingForInput
  | prompting (promptType : PromptType) (questionData : Option QuestionData)
      (assistantContext : Option String)
  | failed (message : String) (errorType : Option ErrorType)
  | exited
  | gone

def AgentError.toErrorType : AgentError → Option ErrorType
  | unauthorized => some .unauthorized
  | outOfCredits => some .outOfCredits
  | noInternet => some .noInternet
  | rateLimited => some .rateLimited
  | other _ => none

def MonitorState.fromAgentState : AgentState → MonitorState
  | .working => working
  | .waitingForInput => waitingForInput
  | .failed failure => failed failure.display failure.toErrorType
  | .exited _ => exited
  | .sessionGone => gone

structure ActionContext where
  agentDef : AgentDef
  actionConfig : ActionConfig
  trigger : String
  chainPos : Nat
  questionData : Option QuestionData
  assistantContext : Option String

inductive ActionEffects where
  | nudge (effects : List Effect)
  | advanceJob
  | failJob (error : String)
  | resume (killSession : Option SessionId) (agentName : String) (input : HashMap String)
      (resumeSessionId : Option String)
  | escalate (effects : List Effect)
  | gate (command : String)

namespace ActionContext

def escalationTrigger (context : ActionContext) : EscalationTrigger :=
  let message := context.actionConfig.message.getD ""
  match context.trigger with
  | "idle" | "on_idle" => .idle context.assistantContext
  | "dead" | "on_dead" | "exit" | "exited" => .dead none context.assistantContext
  | "error" | "on_error" => .error "unknown" message context.assistantContext
  | "prompt:question" => .question context.questionData context.assistantContext
  | "prompt" | "on_prompt" => .prompt "permission" context.assistantContext
  | trigger =>
      let suffix := "_exhausted".toList
      if suffix.isSuffixOf trigger.toList then
        match String.ofList (Text.trimEndMatches suffix trigger.toList) with
        | "idle" => .idle context.assistantContext
        | "prompt:question" => .question context.questionData context.assistantContext
        | "error" => .error "exhausted" message context.assistantContext
        | _ => .dead none context.assistantContext
      else .idle context.assistantContext

end ActionContext

def EscalationTrigger.decisionFor (outside : Outside) (reading : Reading) (job : Job)
    (trigger : EscalationTrigger) : Event :=
  trigger.build reading.uuid (.job job.id) (some (job.sessionId.getD ""))
    (outside.decisionContext trigger job.name) reading.epochMs job.ns

def buildActionEffects (outside : Outside) (reading : Reading) (context : ActionContext)
    (job : Job) : Except RuntimeError ActionEffects :=
  let message := context.actionConfig.message
  match context.actionConfig.action with
  | .nudge =>
      match job.sessionId with
      | none => .error (.jobNotFound "no session")
      | some sessionId =>
          .ok (.nudge [.sendToSession sessionId
            (message.getD "Please continue with the task." ++ "\n")])
  | .done => .ok .advanceJob
  | .fail => .ok (.failJob context.trigger)
  | .resume =>
      let useResume := message.isNone || context.actionConfig.append
      let input := match message with
        | some text =>
            if context.actionConfig.append && useResume then job.vars.insert "resume_message" text
            else job.vars.insert "prompt" text
        | none => job.vars
      .ok (.resume job.sessionId context.agentDef.name input
        (if useResume then job.stepAgentId else none))
  | .escalate =>
      .ok (.escalate [
        .emit (context.escalationTrigger.decisionFor outside reading job),
        .notify ("Decision needed: " ++ job.name)
          ("Job requires attention (" ++ context.trigger ++ ")"),
        .cancelTimer (Timer.exitDeferred job.id)])
  | .gate =>
      match context.actionConfig.run with
      | none => .error (.invalidRunDirective ("job " ++ job.id)
          "gate action requires a 'run' field")
      | some command => .ok (.gate command)

/-! ## Gates -/

def runGateCommand (reading : Reading) (command : String) (dir : PathBuf) : Except String Unit :=
  match reading.gate command dir with
  | .ok output =>
      if output.exitCode = some 0 then .ok ()
      else
        let failed := "gate `" ++ command ++ "` failed (exit " ++
          toString (output.exitCode.getD (-1)) ++ ")"
        let stderr := Text.trim output.stderr.toList
        .error (if stderr.isEmpty then failed else failed ++ ": " ++ String.ofList stderr)
  | .error error => .error ("gate `" ++ command ++ "` execution error: " ++ error)

def parseGateError (error : String) : Int × String :=
  let parsed := do
    let afterExit ← Text.after "(exit ".toList error.toList
    let rest ← Text.after [')'] afterExit
    let code ← Text.parseInt32 (Text.trim (afterExit.takeWhile (· ≠ ')')))
    let stderr := ((Text.after [':'] rest).map Text.trim).getD []
    some (code, String.ofList stderr)
  parsed.getD (1, error)

namespace Handler

variable (outside : Outside)

def updateJobState (id : JobId) (update : Job → Job) : Handler Unit :=
  Program.modify fun runtime => { runtime with world := { runtime.world with
    state := runtime.world.state.updateJob id update } }

/-! ## Carrying out -/

def killAndResume (killSession : Option SessionId) (jobId : JobId) (agentName : String) :
    Handler (List Event) := do
  match killSession with
  | some sessionId => do
      let _ ← execute outside (.killSession sessionId)
      pure ()
  | none => pure ()
  spawnAgent outside jobId agentName

def notifyAgent (effect : Option Effect) : Handler Unit :=
  match effect with
  | none => pure ()
  | some effect => do
      let _ ← execute outside effect
      pure ()

def advanceByAgent (job : Job) (agentDef : AgentDef) : Handler (List Event) := do
  notifyAgent outside (buildAgentNotifyEffect outside job agentDef agentDef.notify.onDone)
  advanceJob outside job

def runGate (job : Job) (agentDef : AgentDef) (command : String) : Handler (List Event) := do
  let vars := (((namespaceVars outside.order job.vars).insert "job_id" job.id).insert "name"
    job.name).insert "workspace" (executionDir job)
  let command := outside.interpolateShell command vars
  let reading ← nextReading
  match runGateCommand reading command (executionDir job) with
  | .ok () => advanceByAgent outside job agentDef
  | .error gateError =>
      let (exitCode, stderr) := parseGateError gateError
      executeAll outside [
        .emit ((EscalationTrigger.gateFailed command exitCode stderr).decisionFor outside reading
          job),
        .cancelTimer (Timer.exitDeferred job.id)]

def executeActionEffects (job : Job) (agentDef : AgentDef) (effects : ActionEffects) :
    Handler (List Event) :=
  match effects with
  | .nudge effects => do
      let clock ← carryOut Exec.readClock
      updateJobState job.id fun job => { job with lastNudgeAt := some clock.epochMs }
      executeAll outside effects
  | .advanceJob => advanceByAgent outside job agentDef
  | .failJob error => do
      notifyAgent outside (buildAgentNotifyEffect outside { job with error := some error } agentDef
        agentDef.notify.onFail)
      failJob outside job error
  -- what the new session is given is part of the plan of the spawn
  | .resume killSession agentName _ _ => killAndResume outside killSession job.id agentName
  | .escalate effects => executeAll outside effects
  | .gate command => runGate outside job agentDef command

def executeAction (job : Job) (context : ActionContext) : Handler (List Event) := do
  let reading ← nextReading
  match buildActionEffects outside reading context job with
  | .error error => Program.throw error
  | .ok effects => executeActionEffects outside job context.agentDef effects

def countAttempt (id : JobId) (trigger : String) (chainPos : Nat) : Handler Nat := do
  updateJobState id (·.incrementActionAttempt trigger chainPos)
  let counted ← readState (·.jobs[id]?)
  pure ((counted.map (·.actionTracker.getActionAttempt trigger chainPos)).getD 1)

def actAfter (job : Job) (context : ActionContext) : Option String → Handler (List Event)
  | none => executeAction outside job context
  | some cooldown =>
      match parseDuration cooldown with
      | .error error =>
          Program.throw (.invalidRequest ("invalid cooldown '" ++ cooldown ++ "': " ++ error))
      | .ok duration => do
          -- the action is taken when the timer expires
          let _ ← execute outside
            (.setTimer (Timer.cooldown job.id context.trigger context.chainPos) duration)
          pure []

def executeActionWithAttempts (job : Job) (context : ActionContext) : Handler (List Event) := do
  let attemptNum ← countAttempt job.id context.trigger context.chainPos
  if context.actionConfig.attempts.isExhausted (attemptNum - 1) then
    executeAction outside job { context with
      actionConfig := .simple .escalate
      trigger := context.trigger ++ "_exhausted" }
  else actAfter outside job context (if 1 < attemptNum then context.actionConfig.cooldown else none)

/-! ## Monitoring -/

def assistantContext (job : Job) : Handler (Option String) := do
  match job.stepAgentId with
  | none => pure none
  | some agentId => do
      let reading ← nextReading
      pure (reading.assistantMessage agentId)

/-- The agent is at work again: the job need not wait for a person, unless it works
only because it has just been nudged. -/
def handleWorking (job : Job) : Handler (List Event) := do
  let _ ← execute outside (.cancelTimer (Timer.idleGrace job.id))
  updateJobState job.id fun job => { job with idleGraceLogSize := none }
  if job.stepStatus.isWaiting then do
    let clock ← carryOut Exec.readClock
    if (job.lastNudgeAt.map fun nudgeAt => decide (clock.epochMs - nudgeAt < 60000)).getD false then
      pure []
    else do
      updateJobState job.id (·.resetActionAttempts)
      executeAll outside [.emit (.stepStarted job.id job.step none none)]
  else pure []

def handleMonitorState (job : Job) (agentDef : AgentDef) (state : MonitorState) :
    Handler (List Event) :=
  match state with
  | .working => handleWorking outside job
  | .waitingForInput => do
      let assistant ← assistantContext job
      executeActionWithAttempts outside job
        ⟨agentDef, agentDef.onIdle, "idle", 0, none, assistant⟩
  | .prompting promptType questionData assistant =>
      let trigger := if promptType = .question then "prompt:question" else "prompt"
      executeActionWithAttempts outside job
        ⟨agentDef, agentDef.onPrompt, trigger, 0, questionData, assistant⟩
  | .failed message errorType => do
      let assistant ← assistantContext job
      executeActionWithAttempts outside job
        ⟨agentDef, agentDef.onError.actionFor errorType, message, 0, none, assistant⟩
  | .exited | .gone => do
      let assistant ← assistantContext job
      executeActionWithAttempts outside job
        ⟨agentDef, agentDef.onDead, "exit", 0, none, assistant⟩

end Handler

end OddJobs
