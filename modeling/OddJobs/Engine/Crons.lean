import OddJobs.Engine.AgentRuns

/-!
# Crons

A cron that is started fires when its timer does, until it is stopped.
-/

namespace OddJobs

open Library

/-- Parse a target such as `job:name` or `agent:name`. -/
def CronRunTarget.fromRunTargetStr (text : String) : CronRunTarget :=
  match Handler.withoutPrefix "agent:" text with
  | some name => .agent name
  | none =>
      match Handler.withoutPrefix "job:" text with
      | some name => .job name
      -- a bare name is a job
      | none => .job text

def MaterializedState.countActiveCronJobs (state : MaterializedState) (cronName ns : String) : Nat :=
  (state.jobs.toList.filter fun entry => entry.2.cronName == some cronName &&
    entry.2.ns == ns && !entry.2.isTerminal).length

def MaterializedState.countRunningAgents (state : MaterializedState) (agentName ns : String) : Nat :=
  (state.agentRuns.toList.filter fun entry => entry.2.agentName == agentName &&
    entry.2.ns == ns && !entry.2.status.isTerminal).length

namespace Handler

variable (outside : Outside)

/-- The number of jobs of a cron that may run at once; an unknown runbook is no error. -/
def cronConcurrency (cronName runbookHash : String) : Handler Nat := do
  let runbook ← @Program.attempt _ _ _ RuntimeError (cachedRunbook outside runbookHash)
  match runbook with
  | .ok runbook => pure (((runbook.getCron cronName).bind (·.concurrency)).getD 1)
  | .error _ => pure 1

def handleCronStarted (cronName : String) (projectRoot : PathBuf)
    (runbookHash interval runTarget ns : String) : Handler (List Event) :=
  match parseDuration interval with
  | .error error =>
      Program.throw (.invalidFormat ("invalid cron interval '" ++ interval ++ "': " ++ error))
  | .ok duration => do
      let concurrency ← cronConcurrency outside cronName runbookHash
      let state : CronState := {
        projectRoot
        runbookHash
        interval
        runTarget := .fromRunTargetStr runTarget
        status := .running
        ns
        concurrency }
      Program.modify fun runtime =>
        { runtime with cronStates := runtime.cronStates.insert cronName state }
      let _ ← execute outside (.setTimer (Timer.cron cronName ns) duration)
      pure []

def handleCronStopped (cronName ns : String) : Handler (List Event) := do
  Program.modify fun runtime => { runtime with
    cronStates := runtime.cronStates.modify cronName fun state => { state with status := .stopped } }
  let _ ← execute outside (.cancelTimer (Timer.cron cronName ns))
  pure []

/-! ## Ticks -/

/-- Re-read the runbook from disk for a running cron.  Returns an event only when its
content has changed. -/
def refreshCronRunbook (cronName : String) : Handler (Option Event) := do
  let state ← Program.read fun runtime : Runtime => runtime.cronStates[cronName]?
  match state with
  | none => pure none
  | some state => do
      let reading ← nextReading
      match reading.runbook with
      | .error error => Program.throw (.runbookLoadError error)
      | .ok none => Program.throw (.runbookLoadError
          ("no runbook found containing cron '" ++ cronName ++ "'"))
      | .ok (some runbook) =>
          let json := outside.encodeRunbook runbook
          let hash := outside.contentHash json
          if state.runbookHash = hash then pure none
          else do
            let concurrency := ((runbook.getCron cronName).bind (·.concurrency)).getD 1
            Program.modify fun runtime => { runtime with
              cronStates := runtime.cronStates.modify cronName fun state =>
                { state with runbookHash := hash, concurrency } }
            cacheRunbook hash runbook
            pure (some (.runbookLoaded hash 1 json))

def cronRunbook (cronName : String) (state : CronState) : Handler (String × Nat × Runbook) := do
  let loaded ← refreshCronRunbook outside cronName
  let _ ← executeAll outside (loaded.toList.map .emit)
  let current ← Program.read fun runtime : Runtime => runtime.cronStates[cronName]?
  let runbookHash := (current.map (·.runbookHash)).getD state.runbookHash
  let concurrency := (current.map (·.concurrency)).getD state.concurrency
  let runbook ← cachedRunbook outside runbookHash
  pure (runbookHash, concurrency, runbook)

def scheduleCron (cronName interval ns : String) : Handler Unit :=
  match parseDuration interval with
  | .error error =>
      Program.throw (.invalidFormat ("invalid cron interval '" ++ interval ++ "': " ++ error))
  | .ok duration => do
      let _ ← execute outside (.setTimer (Timer.cron cronName ns) duration)
      pure ()

def cronJobParams (cronName jobName : String) (state : CronState) (runbookHash : String)
    (runbook : Runbook) (uuid : String) : CreateJobParams where
  jobId := uuid
  jobName := outside.jobDisplayName jobName (short 8 uuid) state.ns
  jobKind := jobName
  vars := (∅ : HashMap String).insert "invoke.dir" state.projectRoot
  runbookHash
  runbookJson := none
  runbook
  ns := state.ns
  cronName := some cronName

def startAgentRun (cronName agentName : String) (agentDef : AgentDef) (state : CronState)
    (runbookHash : String) : Handler (AgentRunId × List Event) := do
  let reading ← nextReading
  let clock ← carryOut Exec.readClock
  let created ← executeAll outside [.emit (.agentRunCreated reading.uuid agentName
    ("cron:" ++ cronName) state.ns state.projectRoot runbookHash ∅ clock.epochMs)]
  let spawned ← spawnStandaloneAgent outside reading.uuid agentDef agentName ∅ state.projectRoot
  pure (reading.uuid, created ++ spawned)

/-- A tick that triggers a job, unless as many of them run as may. -/
def tickJob (cronName jobName : String) (state : CronState) (runbookHash : String)
    (concurrency : Nat) (runbook : Runbook) : Handler (List Event) := do
  let active ← readState (·.countActiveCronJobs cronName state.ns)
  if concurrency ≤ active then do
    scheduleCron outside cronName state.interval state.ns
    pure []
  else do
    let reading ← nextReading
    let created ← createAndStartJob outside
      (cronJobParams outside cronName jobName state runbookHash runbook reading.uuid)
    let fired ← executeAll outside [.emit (.cronFired cronName reading.uuid none state.ns)]
    scheduleCron outside cronName state.interval state.ns
    pure (created ++ fired)

/-- A tick that triggers an agent, unless as many of them run as may. -/
def tickAgent (cronName agentName : String) (state : CronState) (runbookHash : String)
    (runbook : Runbook) : Handler (List Event) := do
  let agentDef ← require (.agentNotFound agentName) (runbook.getAgent agentName)
  let running ← readState (·.countRunningAgents agentName state.ns)
  if agentDef.maxConcurrency.any (· ≤ running) then do
    scheduleCron outside cronName state.interval state.ns
    pure []
  else do
    let (agentRunId, started) ← startAgentRun outside cronName agentName agentDef state runbookHash
    let fired ← executeAll outside [.emit (.cronFired cronName "" (some agentRunId) state.ns)]
    scheduleCron outside cronName state.interval state.ns
    pure (started ++ fired)

def handleCronTimerFired (rest : String) : Handler (List Event) := do
  let cronName := afterLastSlash rest
  let found ← Program.read fun runtime : Runtime => runtime.cronStates[cronName]?
  match found with
  | none => pure []
  | some state =>
      if state.status = .running then do
        let (runbookHash, concurrency, runbook) ← cronRunbook outside cronName state
        match state.runTarget with
        | .job jobName => tickJob outside cronName jobName state runbookHash concurrency runbook
        | .agent agentName => tickAgent outside cronName agentName state runbookHash runbook
      else pure []

end Handler

section Starts

variable {outside : Outside} {cronName runbookHash interval ns : String} {duration : Nat}

theorem cronConcurrency_returns (runtime : Runtime) : ∃ concurrency after,
    Handler.cronConcurrency outside cronName runbookHash runtime = (.ok concurrency, after) := by
  rcases ran : Handler.cachedRunbook outside runbookHash runtime with ⟨result, after⟩
  have tried : @Program.attempt _ _ _ RuntimeError (Handler.cachedRunbook outside runbookHash)
      runtime = (.ok result, after) := by
    unfold Program.attempt
    rw [ran]
  unfold Handler.cronConcurrency
  rw [Program.bind_ok tried]
  cases result with
  | ok runbook => exact ⟨_, after, rfl⟩
  | error error => exact ⟨_, after, rfl⟩

end Starts

end OddJobs
