import OddJobs.Engine.Cleanup
import OddJobs.Engine.Resume
import OddJobs.Engine.Timers

/-!
# Watching over agents

Two more timers of a job: one looks now and then whether the process of the agent still
runs, the other one acts when it has been found dead for a while.
-/

namespace OddJobs

open Library

/-- How often the process of an agent is looked at, in milliseconds. -/
def LIVENESS_INTERVAL : Nat := 30000

/-- How long an agent is dead before its exit is handled, in milliseconds. -/
def EXIT_DELAY : Nat := 5000

inductive JobClock where
  | step (timer : StepTimer)
  | liveness (jobId : JobId)
  | exitDeferred (jobId : JobId)
  deriving DecidableEq, Repr

def JobClock.jobId? : JobClock → Option JobId
  | step (.cooldown rest) => (splitCooldown rest).map (·.1)
  | step (.idleGrace jobId) | liveness jobId | exitDeferred jobId => some jobId

def Timer.jobClock? (id : TimerId) : Option JobClock :=
  let ofAgentRun := ["idle-grace:ar:", "liveness:ar:", "exit-deferred:ar:", "cooldown:ar:"].any
    fun start => (Handler.withoutPrefix start id).isSome
  if ofAgentRun then none
  else
    match stepTimer? id with
    | some timer => some (.step timer)
    | none =>
        match Handler.withoutPrefix "liveness:" id with
        | some jobId => some (.liveness jobId)
        | none => (Handler.withoutPrefix "exit-deferred:" id).map .exitDeferred

namespace Handler

variable (outside : Outside)

def getActiveJob (id : JobId) : Handler (Option Job) := do
  let job ← readState (·.getJob id)
  pure (job.filter (!·.isTerminal))

def agentIfLoaded (job : Job) : Handler (Option AgentDef) := do
  let runbook ← @Program.attempt _ _ _ RuntimeError (cachedRunbook outside job.runbookHash)
  match runbook with
  | .ok runbook => pure (getAgentDef runbook job)
  | .error _ => pure none

/-- Check both session and process: sessions can outlive their processes. -/
def isRunning (job : Job) (sessionId : SessionId) : Handler Bool := do
  let checked ← nextReading
  if checked.sessionAlive sessionId then do
    let agentDef ← agentIfLoaded outside job
    let observed ← nextReading
    pure (observed.processRunning sessionId agentDef)
  else pure false

def handleLivenessTimer (jobId : JobId) : Handler (List Event) := do
  let job ← getActiveJob jobId
  match job.bind fun job => job.sessionId.map (job, ·) with
  | none => pure []
  | some (job, sessionId) => do
      let running ← isRunning outside job sessionId
      let next := if running then Effect.setTimer (Timer.liveness jobId) LIVENESS_INTERVAL
        else .setTimer (Timer.exitDeferred jobId) EXIT_DELAY
      let _ ← execute outside next
      pure []

def finalState (job : Job) : Handler (Option AgentState) :=
  match job.stepAgentId with
  | none => pure none
  | some agentId => do
      let reading ← nextReading
      pure (reading.agentState agentId)

def exitState : Option AgentState → MonitorState
  | some .waitingForInput => .waitingForInput
  | some (.failed error) => .fromAgentState (.failed error)
  | _ => .exited

def handleExitDeferredTimer (jobId : JobId) : Handler (List Event) := do
  let job ← getActiveJob jobId
  match job with
  | none => pure []
  | some job => do
      let final ← finalState job
      forAgent outside job fun agentDef => handleMonitorState outside job agentDef (exitState final)

def handleJobClock : JobClock → Handler (List Event)
  | .step timer => handleStepTimer outside timer
  | .liveness jobId => handleLivenessTimer outside jobId
  | .exitDeferred jobId => handleExitDeferredTimer outside jobId

end Handler

def OtherHandlers.withClocks (outside : Outside) (others : OtherHandlers) : OtherHandlers :=
  { others with timer := fun id =>
      match Timer.jobClock? id with
      | some clock => Handler.handleJobClock outside clock
      | none => others.timer id }

def OtherHandlers.withJobs (outside : Outside) (others : OtherHandlers) : OtherHandlers :=
  (((others.withActions outside).withResume outside).withCleanup outside).withClocks outside

end OddJobs
