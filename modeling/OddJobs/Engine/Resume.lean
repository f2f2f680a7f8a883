import OddJobs.Engine.Cleanup
import OddJobs.Engine.StaleReports
import OddJobs.Storage.Frames

/-!
# Resuming jobs

A resumption lets the agent of a step go on, or runs the command of the step again.  A
job that has failed goes back to the step that failed last.
-/

namespace OddJobs

open Library

def StepOutcome.isFailed : StepOutcome → Bool
  | failed _ => true
  | _ => false

def AgentState.isAlive : AgentState → Bool
  | working | waitingForInput => true
  | _ => false

def StepDef.agentName (stepDef : StepDef) : Option String :=
  match stepDef.run with
  | .agent agent _ => some agent
  | _ => none

def StepDef.isShell (stepDef : StepDef) : Bool :=
  match stepDef.run with
  | .shell _ => true
  | _ => false

namespace Job

def stepAgents (job : Job) (step : String) : List AgentId :=
  (job.stepHistory.reverse.filter (·.name == step)).filterMap (·.agentId)

def resumeStep (job : Job) : Option String :=
  if job.step = "failed" then (job.stepHistory.reverse.find? (·.outcome.isFailed)).map (·.name)
  else some job.step

end Job

namespace Handler

variable (outside : Outside)

def tryKillSession (job : Job) : Handler Unit :=
  match job.sessionId with
  | some sessionId => tryEffect outside (.killSession sessionId)
  | none => pure ()

def nudgeAgent (jobId : JobId) (step : String) (agentId : AgentId) (message : String) :
    Handler (List Event) := do
  let _ ← execute outside (.sendToAgent agentId message)
  let _ ← execute outside (.emit (.stepStarted jobId step (some agentId) none))
  let _ ← execute outside (.setTimer (Timer.liveness jobId) 30000)
  -- the event is not handed back
  pure []

/-- Spawn the agent again; its conversation goes on in the new session. -/
def respawnAgent (job : Job) (agentName : String) : Handler (List Event) := do
  tryKillSession outside job
  spawnAgent outside job.id agentName

def handleAgentResume (job : Job) (step agentName message : String) (kill : Bool) :
    Handler (List Event) := do
  let reading ← nextReading
  match (job.stepAgents step).head? with
  | none => respawnAgent outside job agentName
  | some agentId =>
      if !kill && ((reading.agentState agentId).map AgentState.isAlive).getD false then
        nudgeAgent outside job.id step agentId message
      else respawnAgent outside job agentName

def handleShellResume (job : Job) (step : String) : Handler (List Event) := do
  tryKillSession outside job
  startStep outside job.id step job.vars (executionDir job)

def resumeMessage (job : Job) (stepDef : StepDef) (message : Option String) :
    Handler (Option String) :=
  if stepDef.run.isAgent then
    match message with
    | some text => pure (some text)
    | none =>
        if job.step = "failed" then pure (some "Retrying")
        else Program.throw (.invalidRequest
          ("agent steps require --message for resume. Example:\n  oj job resume " ++
            String.ofList (job.id.toList.take 12) ++ " -m \"I fixed the import, try again\""))
  else pure none

def resetFailed (job : Job) (jobId : JobId) (step : String) : Handler (List Event) :=
  if job.step = "failed" then executeAll outside [.emit (.jobAdvanced jobId step)] else pure []

/-- Persist updates of variables, if any; the event is not handed back. -/
def updateVars (job : Job) (vars : HashMap String) : Handler Unit :=
  if vars.isEmpty then pure ()
  else do
    let _ ← execute outside (.emit (.jobUpdated job.id vars))
    pure ()

def resumeAt (job : Job) (step : String) (stepDef : StepDef) (message : Option String)
    (kill : Bool) : Handler (List Event) :=
  match message with
  | some text => do
      let agentName ← require (.agentNotFound "no agent name in step") stepDef.agentName
      handleAgentResume outside job step agentName text kill
  | none =>
      if stepDef.isShell then handleShellResume outside job step
      else Program.throw (.invalidRequest
        ("resume not supported for step type in step: " ++ step))

def handleJobResume (jobId : JobId) (message : Option String) (vars : HashMap String)
    (kill : Bool) : Handler (List Event) := do
  let job ← requireJob jobId
  let step ← require (.invalidRequest "no failed step found in history") job.resumeStep
  let runbook ← cachedRunbook outside job.runbookHash
  let jobDef ← require (.jobDefNotFound job.kind) (runbook.getJob job.kind)
  let stepDef ← require (.stepNotFound step) (jobDef.getStep step)
  let resolved ← resumeMessage job stepDef message
  let reset ← resetFailed outside job jobId step
  updateVars outside job vars
  let resumed ← resumeAt outside job step stepDef resolved kill
  pure (reset ++ resumed)

end Handler

def OtherHandlers.withResume (outside : Outside) (others : OtherHandlers) : OtherHandlers :=
  { others with event := fun event =>
      match event with
      | .jobResume id message vars kill => Handler.handleJobResume outside id message vars kill
      | event => others.event event }

/-! ## Errors of the parts -/

def RuntimeError.OfEffect (error : RuntimeError) : Prop := ∃ failure, error = .execute failure

namespace Handler

variable (outside : Outside)

theorem carryOut_errs {α : Type} (exec : Exec α) :
    Program.ErrsOnly RuntimeError.OfEffect (carryOut exec) := by
  intro before error after ran
  unfold carryOut at ran
  split at ran
  · cases ran
  · rename_i failure world _
    cases ran
    exact ⟨failure, rfl⟩

theorem nextReading_errs : Program.ErrsOnly RuntimeError.OfEffect nextReading := by
  intro before error after ran
  cases ran

theorem emitNotify_errs (job : Job) (template : Option String) :
    Program.ErrsOnly RuntimeError.OfEffect (emitNotify outside job template) := by
  cases template with
  | none => exact Program.errsOnly_pure _
  | some template => exact (carryOut_errs _).bind fun _ => Program.errsOnly_pure _

theorem require_errs {α : Type} {allowed : RuntimeError → Prop} {error : RuntimeError}
    (allows : allowed error) (value : Option α) : Program.ErrsOnly allowed (require error value) := by
  cases value with
  | none => exact Program.errsOnly_throw allows
  | some value => exact Program.errsOnly_pure value

theorem require_some {α : Type} (error : RuntimeError) (value : α) :
    require error (some value) = pure value := rfl

/-- A command runs, unless an effect fails. -/
theorem runStep_errs {stepDef : StepDef} (shell : stepDef.isShell = true) (job : Job) (id : JobId)
    (stepName : String) (input : HashMap String) (workspacePath : PathBuf) :
    Program.ErrsOnly RuntimeError.OfEffect
      (runStep outside job id stepDef stepName input workspacePath) := by
  unfold StepDef.isShell at shell
  unfold runStep
  cases runs : stepDef.run with
  | shell command => exact nextReading_errs.bind fun _ => carryOut_errs _
  | agent name attach =>
      rw [runs] at shell
      cases shell
  | job nested =>
      rw [runs] at shell
      cases shell

/-- A runbook that cannot be loaded is said to be so. -/
theorem cachedRunbook_errs (hash : String) : Program.ErrsOnly
    (fun error => ∃ text, error = .runbookLoadError text) (cachedRunbook outside hash) := by
  unfold cachedRunbook
  refine (Program.errsOnly_read _).bind fun cached => ?_
  cases cached with
  | some runbook => exact Program.errsOnly_pure _
  | none =>
      refine (Program.errsOnly_read _).bind fun stored => ?_
      refine (require_errs ⟨_, rfl⟩ stored).bind fun stored => ?_
      cases outside.decodeRunbook stored.data with
      | error error => exact Program.errsOnly_throw ⟨_, rfl⟩
      | ok runbook =>
          refine Program.ErrsOnly.bind ?_ fun _ => Program.errsOnly_pure _
          intro before error after ran
          cases ran

/-- The command of a step that is defined is started, unless an effect fails. -/
theorem startStep_errs {before after : Runtime} {id : JobId} {job : Job} {error : RuntimeError}
    {runbook : Runbook} {jobDef : JobDef} {stepDef : StepDef}
    {stepName : String} {input : HashMap String} {workspacePath : PathBuf}
    (found : before.world.state.getJob id = some job)
    (known : before.runbookAt outside job.runbookHash = some runbook)
    (defined : runbook.getJob job.kind = some jobDef)
    (step : jobDef.getStep stepName = some stepDef) (shell : stepDef.isShell = true)
    (ran : startStep outside id stepName input workspacePath before = (.error error, after)) :
    error.OfEffect := by
  have required : requireJob id before = (.ok job, before) := requireJob_eq_ok.mpr ⟨rfl, found⟩
  obtain ⟨_, loads, _⟩ := cachedRunbook_known outside known
  rw [startStep, Program.bind_ok required, Program.bind_ok loads, defined, require_some,
    Program.pure_bind] at ran
  split at ran
  · refine Program.ErrsOnly.bind (carryOut_errs _) (fun failed => ?_) _ _ _ ran
    exact (emitNotify_errs outside job _).bind fun notified => Program.errsOnly_pure _
  · rw [step, require_some, Program.pure_bind] at ran
    refine Program.ErrsOnly.bind (carryOut_errs _) (fun started => ?_) _ _ _ ran
    exact (runStep_errs outside shell job _ _ _ _).bind fun ran => Program.errsOnly_pure _

end Handler

/-! ## The agent goes on -/

/-- What the adapter is asked when the agent of a step goes on: the latest agent of the
step gets a message, or one is spawned for the job. -/
def Request.Resumes (job : Job) (step agentName : String) : Request → Prop
  | sendToAgent agentId _ => (job.stepAgents step).head? = some agentId
  | spawn config => config.agentName = agentName ∧ config.owner = .job job.id
  | _ => False

/-- Something of the kind has been asked of the adapters. -/
def Asked (kind : Request → Prop) (before after : Runtime) : Prop :=
  ∃ new, after.world.requests = before.world.requests ++ new ∧ ∃ asked ∈ new, kind asked

def StepRuns (id : JobId) (step : String) (now : Runtime) : Prop :=
  ∃ job, now.world.state.jobs[id]? = some job ∧ job.step = step ∧ job.stepStatus = .running

theorem Asked.single {kind : Request → Prop} {before after : Runtime} {asked : Request}
    (requests : after.world.requests = before.world.requests ++ [asked]) (holds : kind asked) :
    Asked kind before after := ⟨[asked], requests, asked, List.mem_singleton_self asked, holds⟩

theorem Asked.later {kind : Request → Prop} {before between after : Runtime}
    (first : Asked kind before between)
    (grows : between.world.requests <+: after.world.requests) : Asked kind before after := by
  obtain ⟨new, requests, asked, member, holds⟩ := first
  obtain ⟨rest, extended⟩ := grows
  refine ⟨new ++ rest, ?_, asked, List.mem_append_left rest member, holds⟩
  rw [← extended, requests, List.append_assoc]

theorem Asked.earlier {kind : Request → Prop} {before between after : Runtime}
    (grows : before.world.requests <+: between.world.requests)
    (last : Asked kind between after) : Asked kind before after := by
  obtain ⟨rest, extended⟩ := grows
  obtain ⟨new, requests, asked, member, holds⟩ := last
  refine ⟨rest ++ new, ?_, asked, List.mem_append_right rest member, holds⟩
  rw [requests, ← extended, List.append_assoc]

theorem stepRuns_started (order : WalkOrder) {runtime : Runtime} {id : JobId} {job : Job}
    (found : runtime.world.state.jobs[id]? = some job) (step : String)
    (agentId agentName : Option String) :
    StepRuns id job.step (runtime.emitting order (.stepStarted id step agentId agentName)) := by
  have stored := MaterializedState.lookup_applyStepStarted (runtime.world.clocks 0) agentId
    agentName found
  refine ⟨_, stored, ?_⟩
  rw [Job.applyStepStarted_eq]
  exact ⟨rfl, rfl⟩

namespace Handler

variable (outside : Outside)

/-- An agent that is spawned has been asked for, and its job has a session. -/
theorem execute_spawnAgent_ok {agentId : AgentId} {agentName : String} {owner : OwnerId}
    {workspacePath : PathBuf} {input : HashMap String} {command : String}
    {env : List (String × String)} {cwd : Option PathBuf} {sessionConfig : HashMap Value}
    {before after : Runtime} {event : Option Event}
    (ran : execute outside (.spawnAgent agentId agentName owner workspacePath input command env cwd
      sessionConfig) before = (.ok event, after)) :
    after.world.requests = before.world.requests ++ [.spawn (spawnConfig agentId agentName owner
        workspacePath input command env cwd sessionConfig)] ∧
      ∃ clock sessionId, after.world.state = before.world.state.applyEvent outside.order clock
        (.sessionCreated sessionId owner) := by
  unfold execute carryOut Executor.execute at ran
  rw [Program.run_bind] at ran
  simp only [Exec.nextReply] at ran
  rw [Executor.executeInner, Program.run_bind] at ran
  simp only [Exec.request, Program.run_modify] at ran
  cases replied : (before.world.replies 0).spawned with
  | error error =>
      rw [replied] at ran
      cases ran
  | ok sessionId =>
      rw [replied] at ran
      cases ran
      exact ⟨rfl, before.world.clocks 0, sessionId, rfl⟩

theorem execute_sendToAgent_ok {agentId : AgentId} {input : String} {before after : Runtime}
    {event : Option Event}
    (ran : execute outside (.sendToAgent agentId input) before = (.ok event, after)) :
    after.world.requests = before.world.requests ++ [.sendToAgent agentId input] ∧
      after.world.state = before.world.state := by
  unfold execute carryOut Executor.execute at ran
  rw [Program.run_bind] at ran
  simp only [Exec.nextReply] at ran
  rw [Executor.executeInner, Program.run_bind] at ran
  simp only [Exec.request, Program.run_modify] at ran
  cases replied : (before.world.replies 0).delivered with
  | error error =>
      rw [replied] at ran
      cases ran
  | ok value =>
      rw [replied] at ran
      cases ran
      exact ⟨rfl, rfl⟩

/-- An agent is spawned for the step at which its job is, and that step runs. -/
theorem spawnAgent_running {id : JobId} {agentName : String} {before after : Runtime}
    {events : List Event} {job : Job} (found : before.world.state.jobs[id]? = some job)
    (ran : spawnAgent outside id agentName before = (.ok events, after)) :
    StepRuns id job.step after ∧
      Asked (fun asked => ∃ config, asked = .spawn config ∧ config.agentName = agentName ∧
        config.owner = .job id) before after := by
  unfold spawnAgent at ran
  obtain ⟨read, _, required, looks⟩ := Program.bind_eq_ok.mp ran
  obtain ⟨rfl, present⟩ := requireJob_eq_ok.mp required
  rw [MaterializedState.getJob_found found] at present
  cases present
  obtain ⟨runbook, _, looked, defines⟩ := Program.bind_eq_ok.mp looks
  obtain ⟨_, runbookCache, rfl⟩ := cachedRunbook_eq_ok outside looked
  obtain ⟨agentDef, _, defined, reads⟩ := Program.bind_eq_ok.mp defines
  obtain ⟨_, rfl⟩ := require_eq_ok defined
  obtain ⟨reading, _, first, plans⟩ := Program.bind_eq_ok.mp reads
  cases first
  cases planned : (before.readings 0).plan with
  | error error =>
      rw [planned] at plans
      cases plans
  | ok plan =>
      rw [planned] at plans
      obtain ⟨_, _, owns, spawns⟩ := Program.bind_eq_ok.mp plans
      cases owns
      obtain ⟨spawned, started, carriedOut, notifies⟩ := Program.bind_eq_ok.mp spawns
      rw [executeAll_cons] at carriedOut
      obtain ⟨created, session, opens, rest⟩ := Program.bind_eq_ok.mp carriedOut
      obtain ⟨requests, clock, sessionId, state⟩ := execute_spawnAgent_ok outside opens
      have runs : executeAll outside [.setTimer (Timer.liveness id) 30000,
          .emit (.stepStarted id job.step (some plan.agentId) (some agentName))] session =
          (.ok [.stepStarted id job.step (some plan.agentId) (some agentName)],
            (session.timing (Timer.liveness id) 30000).emitting outside.order
              (.stepStarted id job.step (some plan.agentId) (some agentName))) := rfl
      obtain ⟨_, last, times, returned⟩ := Program.bind_eq_ok.mp rest
      rw [runs] at times
      cases times
      cases returned
      have asked : Asked (fun asked => ∃ config, asked = .spawn config ∧
          config.agentName = agentName ∧ config.owner = .job id) before session :=
        .single requests ⟨_, rfl, rfl, rfl⟩
      have opened : (Event.sessionCreated sessionId (.job id)).movesJob = false := rfl
      have same := MaterializedState.applyEvent_sameHistory outside.order clock
        before.world.state opened
      obtain ⟨next, present, history⟩ := same.lookup found
      rw [← state] at present
      have stays : (session.timing (Timer.liveness id) 30000).world.state.jobs[id]? = some next :=
        present
      have runsStep := stepRuns_started outside.order stays job.step (some plan.agentId)
        (some agentName)
      rw [history.step] at runsStep
      cases template : agentDef.notify.onStart with
      | none =>
          rw [buildAgentNotifyEffect, template] at notifies
          cases notifies
          exact ⟨runsStep, asked⟩
      | some text =>
          rw [buildAgentNotifyEffect, template] at notifies
          cases notifies
          exact ⟨runsStep, asked.later (List.prefix_append _ _)⟩

/-- An agent that is nudged was sent the message, and its step runs. -/
theorem nudgeAgent_running {id : JobId} {step message : String} {agentId : AgentId}
    {before after : Runtime} {events : List Event} {job : Job}
    (found : before.world.state.jobs[id]? = some job)
    (ran : nudgeAgent outside id step agentId message before = (.ok events, after)) :
    StepRuns id job.step after ∧ Asked (· = .sendToAgent agentId message) before after := by
  unfold nudgeAgent at ran
  obtain ⟨_, told, sends, rest⟩ := Program.bind_eq_ok.mp ran
  obtain ⟨requests, state⟩ := execute_sendToAgent_ok outside sends
  rw [← state] at found
  have runs : StepRuns id job.step (told.emitting outside.order
      (.stepStarted id step (some agentId) none)) := stepRuns_started outside.order found step _ _
  cases rest
  exact ⟨runs, .single requests rfl⟩

theorem tryKillSession_run (job : Job) (before : Runtime) :
    ∃ after, tryKillSession outside job before = (.ok (), after) ∧
      after.world.state = before.world.state ∧
      before.world.requests <+: after.world.requests ∧
      after.runbookCache = before.runbookCache := by
  unfold tryKillSession
  cases job.sessionId with
  | none => exact ⟨before, rfl, rfl, List.prefix_refl _, rfl⟩
  | some sessionId =>
      exact ⟨_, tryEffect_killSession outside sessionId before, rfl, List.prefix_append _ _, rfl⟩

/-- An agent that is resumed has been asked to go on, and the job's step runs. -/
theorem handleAgentResume_running {job found : Job} {step agentName message : String} {kill : Bool}
    {before after : Runtime} {events : List Event}
    (present : before.world.state.jobs[job.id]? = some found)
    (ran : handleAgentResume outside job step agentName message kill before = (.ok events, after)) :
    StepRuns job.id found.step after ∧ Asked (·.Resumes job step agentName) before after := by
  have respawns : ∀ (middle : Runtime), middle.world = before.world →
      respawnAgent outside job agentName middle = (.ok events, after) →
      StepRuns job.id found.step after ∧ Asked (·.Resumes job step agentName) before after := by
    intro middle same respawned
    obtain ⟨killed, kills, state, grows, _⟩ := tryKillSession_run outside job middle
    unfold respawnAgent at respawned
    rw [Program.bind_ok kills] at respawned
    rw [← same, ← state] at present
    obtain ⟨runs, new, requests, asked, member, config, rfl, named, owned⟩ :=
      spawnAgent_running outside present respawned
    rw [same] at grows
    exact ⟨runs, .earlier grows ⟨new, requests, .spawn config, member, named, owned⟩⟩
  unfold handleAgentResume at ran
  obtain ⟨reading, middle, first, rest⟩ := Program.bind_eq_ok.mp ran
  cases first
  cases latest : (job.stepAgents step).head? with
  | none =>
      rw [latest] at rest
      exact respawns before.afterReading rfl rest
  | some agentId =>
      rw [latest] at rest
      dsimp only at rest
      split at rest
      · have nudged : nudgeAgent outside job.id step agentId message before.afterReading =
            (.ok events, after) := rest
        have stays : before.afterReading.world.state.jobs[job.id]? = some found := present
        obtain ⟨runs, new, requests, _, member, rfl⟩ := nudgeAgent_running outside stays nudged
        exact ⟨runs, new, requests, _, member, latest⟩
      · exact respawns before.afterReading rfl rest

/-- A job that has failed is back at its failed step; no other job has moved. -/
theorem resetFailed_atStep {id : JobId} {job : Job} {step : String} {before after : Runtime}
    {events : List Event} (found : before.world.state.jobs[id]? = some job)
    (resumes : job.resumeStep = some step)
    (ran : resetFailed outside job id step before = (.ok events, after)) :
    (∃ current, after.world.state.jobs[id]? = some current ∧ current.step = step) ∧
      after.world.requests = before.world.requests := by
  unfold resetFailed at ran
  split at ran
  · rename_i failed
    rw [executeAll_emit] at ran
    cases ran
    refine ⟨?_, rfl⟩
    have advanced := MaterializedState.lookup_applyJobAdvanced (before.world.clocks 0) id id step
      before.world.state
    rw [if_pos rfl, found, Option.map_some] at advanced
    refine ⟨_, advanced, ?_⟩
    split
    · rename_i skipped
      exact beq_iff_eq.mp (Bool.and_eq_true_iff.mp skipped).1
    · rw [Job.applyAdvanced_eq]
  · rename_i going
    cases ran
    unfold Job.resumeStep at resumes
    rw [if_neg going] at resumes
    cases resumes
    exact ⟨⟨job, found, rfl⟩, rfl⟩

end Handler

def Runtime.agentAt (outside : Outside) (runtime : Runtime) (job : Job) (step : String) :
    Option String :=
  ((runtime.runbookAt outside job.runbookHash).bind (·.getJob job.kind)).bind fun jobDef =>
    (jobDef.getStep step).bind (·.agentName)

namespace Handler

variable (outside : Outside)

/-- For an agent there is a message. -/
theorem resumeMessage_agent {job : Job} {stepDef : StepDef} {message resolved : Option String}
    {agentName : String} {before after : Runtime} (agent : stepDef.agentName = some agentName)
    (ran : resumeMessage job stepDef message before = (.ok resolved, after)) :
    ∃ text, resolved = some text ∧ before = after := by
  have isAgent : stepDef.run.isAgent = true := by
    unfold StepDef.agentName at agent
    cases runs : stepDef.run with
    | agent name attach => rfl
    | shell command =>
        rw [runs] at agent
        cases agent
    | job nested =>
        rw [runs] at agent
        cases agent
  unfold resumeMessage at ran
  rw [if_pos isAgent] at ran
  cases message with
  | some text =>
      cases ran
      exact ⟨text, rfl, rfl⟩
  | none =>
      dsimp only at ran
      split at ran
      · cases ran
        exact ⟨_, rfl, rfl⟩
      · cases ran

/-- A job goes on at its step.  Where that runs an agent, the agent is asked to go on. -/
theorem handleJobResume_running {id : JobId} {job : Job} {message : Option String} {kill : Bool}
    {before after : Runtime} {events : List Event} {step agentName : String}
    (found : before.world.state.jobs[id]? = some job) (named : job.id = id)
    (resumes : job.resumeStep = some step)
    (runs : before.agentAt outside job step = some agentName)
    (ran : handleJobResume outside id message ∅ kill before = (.ok events, after)) :
    StepRuns id step after ∧ Asked (·.Resumes job step agentName) before after := by
  unfold handleJobResume at ran
  obtain ⟨read, _, required, rest⟩ := Program.bind_eq_ok.mp ran
  obtain ⟨rfl, present⟩ := requireJob_eq_ok.mp required
  rw [MaterializedState.getJob_found found] at present
  cases present
  obtain ⟨_, _, goesOn, rest⟩ := Program.bind_eq_ok.mp rest
  obtain ⟨same, rfl⟩ := require_eq_ok goesOn
  rw [resumes] at same
  cases same
  obtain ⟨runbook, _, looked, rest⟩ := Program.bind_eq_ok.mp rest
  obtain ⟨known, runbookCache, rfl⟩ := cachedRunbook_eq_ok outside looked
  obtain ⟨jobDef, _, defined, rest⟩ := Program.bind_eq_ok.mp rest
  obtain ⟨jobDefined, rfl⟩ := require_eq_ok defined
  obtain ⟨stepDef, _, defined, rest⟩ := Program.bind_eq_ok.mp rest
  obtain ⟨stepDefined, rfl⟩ := require_eq_ok defined
  have agent : stepDef.agentName = some agentName := by
    unfold Runtime.agentAt at runs
    rw [known, Option.bind_some, jobDefined, Option.bind_some, stepDefined] at runs
    exact runs
  obtain ⟨resolved, _, resolves, rest⟩ := Program.bind_eq_ok.mp rest
  obtain ⟨text, rfl, rfl⟩ := resumeMessage_agent agent resolves
  obtain ⟨reset, back, resets, rest⟩ := Program.bind_eq_ok.mp rest
  have lookedUp : ({ before with runbookCache } : Runtime).world.state.jobs[id]? = some job := found
  obtain ⟨⟨current, stored, atStep⟩, requests⟩ := resetFailed_atStep outside lookedUp resumes resets
  obtain ⟨_, _, updates, rest⟩ := Program.bind_eq_ok.mp rest
  rw [updateVars, if_pos Std.ExtTreeMap.isEmpty_empty] at updates
  cases updates
  obtain ⟨resumed, last, goes, returned⟩ := Program.bind_eq_ok.mp rest
  cases returned
  unfold resumeAt at goes
  obtain ⟨_, _, agentFound, goes⟩ := Program.bind_eq_ok.mp goes
  obtain ⟨same, rfl⟩ := require_eq_ok agentFound
  rw [agent] at same
  cases same
  rw [← named] at stored
  obtain ⟨running, asked⟩ := handleAgentResume_running outside stored goes
  rw [named, atStep] at running
  exact ⟨running, .earlier (requests ▸ List.prefix_refl _) asked⟩

end Handler

end OddJobs
