import OddJobs.Engine.Advances

/-!
# What a resumption leaves

A resumption is refused before it changes anything, or it changes the job and hands back the
events for it.
-/

namespace OddJobs

open Library MaterializedState

/-! ## Going back and new variables -/

namespace Job

/-- The job once it has gone back to the step that failed, if it has failed and is named by
its whole id. -/
def backTo (id : JobId) (step : String) (epochMs : Nat) (job : Job) : Job :=
  if job.step = "failed" ∧ id = job.id ∧ job.advanceSkipped step = false then
    job.applyAdvanced epochMs step
  else job

/-- All of the variables have these values already. -/
def HasVars (vars : HashMap String) (job : Job) : Prop :=
  job.vars.insertMany vars.toList = job.vars

theorem backTo_same (id : JobId) (step : String) (epochMs : Nat) (job : Job) :
    (job.backTo id step epochMs).vars = job.vars ∧
      (job.backTo id step epochMs).kind = job.kind ∧
      (job.backTo id step epochMs).runbookHash = job.runbookHash := by
  rw [backTo]
  split
  · rw [applyAdvanced_eq]
    exact ⟨rfl, rfl, rfl⟩
  · exact ⟨rfl, rfl, rfl⟩

/-- Nothing is changed where neither part changes something. -/
theorem applyUpdated_backTo_eq {id : JobId} {step : String} {epochMs : Nat} {job : Job}
    {vars : HashMap String} :
    (job.backTo id step epochMs).applyUpdated vars = job ↔
      job.backTo id step epochMs = job ∧ job.HasVars vars := by
  obtain ⟨same, -, -⟩ := job.backTo_same id step epochMs
  rw [applyUpdated, HasVars, same]
  constructor
  · intro whole
    have kept : job.vars.insertMany vars.toList = job.vars := congrArg Job.vars whole
    rw [kept, ← same] at whole
    exact ⟨whole, kept⟩
  · rintro ⟨back, kept⟩
    rw [back, kept]

theorem applyUpdated_empty {vars : HashMap String} (empty : vars.isEmpty = true) (job : Job) :
    job.applyUpdated vars = job := by
  have none : vars = ∅ := Std.ExtTreeMap.isEmpty_iff.mp empty
  rw [applyUpdated, none]
  rfl

end Job

namespace Runtime

variable (outside : Outside)

def wentBack (job : Job) (id : JobId) (step : String) (runtime : Runtime) : Runtime :=
  if job.step = "failed" then runtime.emitting outside.order (.jobAdvanced id step) else runtime

def revised (job : Job) (vars : HashMap String) (runtime : Runtime) : Runtime :=
  if vars.isEmpty then runtime else runtime.emitting outside.order (.jobUpdated job.id vars)

def prepared (job : Job) (id : JobId) (step : String) (vars : HashMap String)
    (runtime : Runtime) : Runtime :=
  (runtime.wentBack outside job id step).revised outside job vars

end Runtime

def Job.backEvents (id : JobId) (step : String) (job : Job) : List Event :=
  if job.step = "failed" then [.jobAdvanced id step] else []

section Prepared

variable (outside : Outside) {job : Job} {id : JobId} {step : String} {vars : HashMap String}
  {runtime : Runtime}

theorem Handler.resetFailed_run : Handler.resetFailed outside job id step runtime =
    (.ok (job.backEvents id step), runtime.wentBack outside job id step) := by
  unfold Handler.resetFailed Job.backEvents Runtime.wentBack
  split <;> rfl

theorem Handler.updateVars_run : Handler.updateVars outside job vars runtime =
    (.ok (), runtime.revised outside job vars) := by
  unfold Handler.updateVars Runtime.revised
  split <;> rfl

namespace Runtime

theorem wentBack_advances :
    Advances (job.backEvents id step) runtime.world.state
      (runtime.wentBack outside job id step).world.state := by
  unfold Job.backEvents wentBack
  split
  · exact Handler.executeAll_advances outside (List.forall_mem_singleton.mpr rfl)
      (Handler.executeAll_emit outside (.jobAdvanced id step) runtime)
  · exact .none fun _ => rfl

theorem place_revised (key : JobId) : (runtime.revised outside job vars).world.state.place key =
    (runtime.world.state.place key).map fun place =>
      (if job.id = key then place.1.insertMany vars.toList else place.1, place.2) := by
  unfold revised
  split
  · rename_i empty
    have none : vars = ∅ := Std.ExtTreeMap.isEmpty_iff.mp empty
    have same (place : HashMap String × String) :
        (if job.id = key then place.1.insertMany vars.toList else place.1, place.2) = place := by
      rw [none]
      split <;> rfl
    rw [funext same]
    exact Option.map_id'.symm
  · change ((runtime.world.state.updateJob job.id (Job.applyUpdated vars)).jobs[key]?).map _ = _
    rw [lookup_updateJob, place]
    split
    · rw [Option.map_map, Option.map_map]
      rfl
    · rw [Option.map_map]
      rfl

theorem prepared_job (found : runtime.world.state.jobs[job.id]? = some job) :
    (runtime.prepared outside job id step vars).world.state.jobs[job.id]? =
      some ((job.backTo id step (runtime.world.clocks 0).epochMs).applyUpdated vars) := by
  have back : (runtime.wentBack outside job id step).world.state.jobs[job.id]? =
      some (job.backTo id step (runtime.world.clocks 0).epochMs) := by
    unfold wentBack Job.backTo
    by_cases failed : job.step = "failed"
    · rw [if_pos failed]
      change (runtime.world.state.applyJobAdvanced (runtime.world.clocks 0) id step).jobs[job.id]? = _
      rw [lookup_applyJobAdvanced, found]
      by_cases same : id = job.id
      · rw [if_pos same, Option.map_some]
        by_cases skipped : job.advanceSkipped step = true
        · rw [if_pos skipped, if_neg]
          rintro ⟨-, -, moves⟩
          rw [skipped] at moves
          cases moves
        · rw [if_neg skipped, if_pos ⟨failed, same, Bool.eq_false_iff.mpr skipped⟩]
      · rw [if_neg same, if_neg fun all => same all.2.1]
    · rw [if_neg failed, if_neg fun all => failed all.1]
      exact found
  unfold prepared revised
  split
  · rename_i empty
    rw [Job.applyUpdated_empty empty]
    exact back
  · change ((runtime.wentBack outside job id step).world.state.updateJob job.id
      (Job.applyUpdated vars)).jobs[job.id]? = _
    rw [lookup_updateJob, if_pos rfl, back]
    rfl

/-- What is known of runbooks stays, and so does what is read from outside. -/
theorem prepared_same : (runtime.prepared outside job id step vars).runbookCache =
      runtime.runbookCache ∧
    (runtime.prepared outside job id step vars).world.state.runbooks =
      runtime.world.state.runbooks ∧
    (runtime.prepared outside job id step vars).readings = runtime.readings := by
  have back : (runtime.wentBack outside job id step).runbookCache = runtime.runbookCache ∧
      (runtime.wentBack outside job id step).world.state.runbooks =
        runtime.world.state.runbooks ∧
      (runtime.wentBack outside job id step).readings = runtime.readings := by
    unfold wentBack
    split
    · refine ⟨rfl, ?_, rfl⟩
      change (runtime.world.state.applyJobAdvanced (runtime.world.clocks 0) id step).runbooks = _
      unfold applyJobAdvanced
      split
      · rfl
      · dsimp only
        split <;> rfl
    · exact ⟨rfl, rfl, rfl⟩
  unfold prepared revised
  split
  · exact back
  · exact ⟨back.1, back.2.1, back.2.2⟩

end Runtime

end Prepared

/-! ## Errors -/

def RuntimeError.isInvalid : RuntimeError → Bool
  | invalidRequest _ | stepNotFound _ | jobDefNotFound _ => true
  | _ => false

/-- What is told of a plan for an agent is not that the request is invalid. -/
def Runtime.PlansValid (runtime : Runtime) : Prop :=
  ∀ n error, (runtime.readings n).plan = .error error → error.isInvalid = false

theorem RuntimeError.OfEffect.valid {error : RuntimeError} (failed : error.OfEffect) :
    error.isInvalid = false := by
  obtain ⟨failure, rfl⟩ := failed
  rfl

namespace Handler

variable (outside : Outside) {before after : Runtime} {id : JobId} {job : Job} {error : RuntimeError}

theorem requireJob_errs (id : JobId) :
    Program.ErrsOnly (fun error => error.isInvalid = false) (requireJob id) :=
  (Program.errsOnly_read _).bind fun found =>
    @require_errs _ (fun error => error.isInvalid = false) _ rfl found

theorem spawnAgent_errs {agentName : String} (plans : before.PlansValid)
    (ran : spawnAgent outside id agentName before = (.error error, after)) :
    error.isInvalid = false := by
  unfold spawnAgent at ran
  rcases Program.bind_eq_error.mp ran with required | ⟨job, _, required, ran⟩
  · exact requireJob_errs id _ _ _ required
  obtain ⟨rfl, -⟩ := requireJob_eq_ok.mp required
  rcases Program.bind_eq_error.mp ran with looked | ⟨runbook, _, looked, ran⟩
  · obtain ⟨text, rfl⟩ := cachedRunbook_errs outside _ _ _ _ looked
    rfl
  obtain ⟨-, runbookCache, rfl⟩ := cachedRunbook_eq_ok outside looked
  rcases Program.bind_eq_error.mp ran with named | ⟨agentDef, _, named, ran⟩
  · exact @require_errs _ (fun error => error.isInvalid = false) _ rfl _ _ _ _ named
  obtain ⟨-, rfl⟩ := require_eq_ok named
  rcases Program.bind_eq_error.mp ran with first | ⟨reading, _, first, ran⟩
  · cases first
  cases first
  dsimp only at ran
  cases planned : (before.readings 0).plan with
  | error failed =>
      rw [planned] at ran
      cases ran
      exact plans 0 _ planned
  | ok plan =>
      rw [planned] at ran
      have effects {A : Type} {next : A → Handler (List Event)} {exec : Exec A}
          (later : ∀ value, Program.ErrsOnly RuntimeError.OfEffect (next value)) :
          Program.ErrsOnly RuntimeError.OfEffect (carryOut exec >>= next) :=
        (carryOut_errs exec).bind later
      rcases Program.bind_eq_error.mp ran with owns | ⟨_, _, owns, ran⟩
      · cases owns
      refine RuntimeError.OfEffect.valid (effects ?_ _ _ _ ran)
      intro events
      cases buildAgentNotifyEffect outside job agentDef agentDef.notify.onStart with
      | none => exact Program.errsOnly_pure _
      | some effect => exact effects fun event => Program.errsOnly_pure _

theorem respawnAgent_errs {agentName : String} (plans : before.PlansValid)
    (ran : respawnAgent outside job agentName before = (.error error, after)) :
    error.isInvalid = false := by
  have readings : (tryKillSession outside job before).2.PlansValid := by
    unfold tryKillSession
    cases job.sessionId with
    | none => exact plans
    | some sessionId =>
        dsimp only
        rw [tryEffect_killSession]
        exact plans
  obtain ⟨killed, kills, -⟩ := tryKillSession_run outside job before
  rw [kills] at readings
  unfold respawnAgent at ran
  rw [Program.bind_ok kills] at ran
  exact spawnAgent_errs outside readings ran

theorem handleAgentResume_errs {step agentName message : String} {kill : Bool}
    (plans : before.PlansValid)
    (ran : handleAgentResume outside job step agentName message kill before = (.error error, after)) :
    error.isInvalid = false := by
  have read : before.afterReading.PlansValid := fun n => plans (n + 1)
  unfold handleAgentResume at ran
  rcases Program.bind_eq_error.mp ran with first | ⟨reading, _, first, ran⟩
  · cases first
  cases first
  cases latest : (job.stepAgents step).head? with
  | none =>
      rw [latest] at ran
      exact respawnAgent_errs outside read ran
  | some agentId =>
      rw [latest] at ran
      dsimp only at ran
      split at ran
      · refine RuntimeError.OfEffect.valid ?_
        unfold nudgeAgent execute at ran
        refine Program.ErrsOnly.bind (carryOut_errs _) (fun sent => ?_) _ _ _ ran
        refine (carryOut_errs _).bind fun started => ?_
        exact (carryOut_errs _).bind fun timed => Program.errsOnly_pure _
      · exact respawnAgent_errs outside read ran

end Handler

/-! ## Resumptions that go well -/

/-- The adapters do all they are asked. -/
def Runtime.Willing (runtime : Runtime) : Prop :=
  ∀ n, (∃ session, (runtime.world.replies n).spawned = .ok session) ∧
    (runtime.world.replies n).delivered = .ok ()

/-- A part that returns, and leaves adapters, runbooks and readings as they are. -/
def GoesWell {A : Type} (handler : Handler A) (before : Runtime) : Prop :=
  ∃ value after, handler before = (.ok value, after) ∧ after.Willing ∧
    after.runbookCache = before.runbookCache ∧ after.readings = before.readings

namespace Handler

variable (outside : Outside) {before : Runtime} {id : JobId} {job : Job}

theorem execute_goesWell {effect : Effect} (plain : effect.isPlain = true)
    (willing : before.Willing) : GoesWell (execute outside effect) before := by
  have reply := willing 0
  have ok : (effect.perform before.world.state (before.world.replies 0)).ok = true := by
    obtain ⟨⟨session, spawned⟩, delivered⟩ := reply
    cases effect with
    | createWorkspace | deleteWorkspace => cases plain
    | spawnAgent =>
        rw [Effect.perform, spawned]
        rfl
    | sendToAgent | killAgent | sendToSession | killSession =>
        rw [Effect.perform, delivered]
        rfl
    | emit | setTimer | cancelTimer | shell | pollQueue | takeQueueItem | notify => rfl
  obtain ⟨replies, -, ended⟩ := @execute_carries outside.order before.world.state before.world
    (Agrees.refl false _) effect
  unfold GoesWell execute carryOut
  revert replies ended
  generalize Executor.execute outside.order effect before.world = run
  obtain ⟨_ | event, world⟩ := run
  · intro _ ended
    cases ok.symm.trans ended
  · intro replies _
    refine ⟨event, _, rfl, fun n => ?_, rfl, rfl⟩
    change (∃ session, (world.replies n).spawned = .ok session) ∧ (world.replies n).delivered = _
    rw [show world.replies = _ from replies]
    exact willing (n + 1)

theorem executeAll_goesWell {effects : List Effect}
    (plain : ∀ effect ∈ effects, effect.isPlain = true) (willing : before.Willing) :
    GoesWell (executeAll outside effects) before := by
  induction effects generalizing before with
  | nil => exact ⟨[], before, rfl, willing, rfl, rfl⟩
  | cons effect effects ih =>
      obtain ⟨event, middle, first, willing, cache, readings⟩ :=
        execute_goesWell outside (plain effect List.mem_cons_self) willing
      obtain ⟨events, after, rest, willing, cacheLater, readingsLater⟩ :=
        ih (fun other member => plain other (List.mem_cons_of_mem effect member)) willing
      refine ⟨event.toList ++ events, after, ?_, willing, cacheLater.trans cache,
        readingsLater.trans readings⟩
      rw [executeAll_cons, Program.bind_ok first, Program.bind_ok rest]
      rfl

theorem emitNotify_goesWell (template : Option String) (willing : before.Willing) :
    GoesWell (emitNotify outside job template) before := by
  cases template with
  | none => exact ⟨[], before, rfl, willing, rfl, rfl⟩
  | some template =>
      obtain ⟨event, after, notified, rest⟩ := @execute_goesWell outside before
        (.notify job.name (outside.interpolate template _)) rfl willing
      refine ⟨event.toList, after, ?_, rest⟩
      rw [emitNotify]
      exact Program.bind_ok notified

variable {runbook : Runbook}

theorem spawnAgent_goesWell {agentName : String} {agentDef : AgentDef} {plan : SpawnPlan}
    (willing : before.Willing) (found : before.world.state.getJob id = some job)
    (known : before.runbookAt outside job.runbookHash = some runbook)
    (named : runbook.getAgent agentName = some agentDef)
    (planned : (before.readings 0).plan = .ok plan) :
    ∃ events after, spawnAgent outside id agentName before = (.ok events, after) := by
  have required : requireJob id before = (.ok job, before) := requireJob_eq_ok.mpr ⟨rfl, found⟩
  obtain ⟨runbookCache, loads, -⟩ := cachedRunbook_known outside known
  let opened : Runtime := { before with
    runbookCache
    readings := fun n => before.readings (n + 1)
    agentOwners := before.agentOwners.insert plan.agentId (.job id) }
  have willing' : opened.Willing := willing
  obtain ⟨events, started, begins, willing, -⟩ := @executeAll_goesWell outside opened [
    .spawnAgent plan.agentId agentName (.job id) (executionDir job) plan.input plan.command
      plan.env (some plan.cwd) plan.sessionConfig,
    .setTimer (Timer.liveness id) 30000,
    .emit (.stepStarted id job.step (some plan.agentId) (some agentName))]
    (by simp [Effect.isPlain, Event.rewritesVars]) willing'
  rw [spawnAgent, Program.bind_ok required, Program.bind_ok loads, named, require_some,
    Program.pure_bind]
  have read : nextReading { before with runbookCache } = (.ok (before.readings 0),
    { before with
      runbookCache
      readings := fun n => before.readings (n + 1) }) := rfl
  rw [Program.bind_ok read, planned]
  dsimp only
  have registers : registerAgent plan.agentId (.job id) { before with
      runbookCache
      readings := fun n => before.readings (n + 1) } = (.ok (), opened) := rfl
  rw [Program.bind_ok registers, Program.bind_ok begins]
  unfold buildAgentNotifyEffect
  cases agentDef.notify.onStart with
  | none => exact ⟨_, _, rfl⟩
  | some template =>
      obtain ⟨event, after, notified, -⟩ := @execute_goesWell outside started
        (.notify agentDef.name (outside.interpolate template _)) rfl willing
      exact ⟨_, _, Program.bind_ok notified⟩

theorem startStep_goesWell {jobDef : JobDef} {stepDef : StepDef} {stepName : String}
    {input : HashMap String} {workspacePath : PathBuf}
    (willing : before.Willing) (found : before.world.state.getJob id = some job)
    (known : before.runbookAt outside job.runbookHash = some runbook)
    (defined : runbook.getJob job.kind = some jobDef)
    (step : jobDef.getStep stepName = some stepDef) (shell : stepDef.isShell = true) :
    ∃ events after,
      startStep outside id stepName input workspacePath before = (.ok events, after) := by
  have required : requireJob id before = (.ok job, before) := requireJob_eq_ok.mpr ⟨rfl, found⟩
  obtain ⟨runbookCache, loads, -⟩ := cachedRunbook_known outside known
  have willing' : ({ before with runbookCache } : Runtime).Willing := willing
  rw [startStep, Program.bind_ok required, Program.bind_ok loads, defined, require_some,
    Program.pure_bind]
  split
  · obtain ⟨failed, middle, fails, willing, -⟩ := executeAll_goesWell outside
      (failureEffects_plain job (circuitBreakerError stepName (job.getStepVisits stepName))) willing'
    obtain ⟨notified, after, notifies, -⟩ :=
      @emitNotify_goesWell outside middle job jobDef.notify.onFail willing
    rw [Program.bind_ok fails, Program.bind_ok notifies]
    exact ⟨_, _, rfl⟩
  · rw [step, require_some, Program.pure_bind]
    obtain ⟨started, middle, starts, willing, -⟩ := @executeAll_goesWell outside _
      (Steps.stepStartEffects id stepName) (List.forall_mem_singleton.mpr rfl) willing'
    rw [Program.bind_ok starts, runStep]
    unfold StepDef.isShell at shell
    cases runs : stepDef.run with
    | shell command =>
        have read : middle.afterReading.Willing := willing
        obtain ⟨events, after, runs, -⟩ := @executeAll_goesWell outside middle.afterReading
          [.shell (some (.job id)) stepName (outside.interpolateShell command
            (((namespaceVars outside.order input).insert "job_id" id).insert "name"
              job.name |>.insert "workspace" workspacePath)) workspacePath
            (shellEnv job (middle.readings 0).userEnv)]
          (List.forall_mem_singleton.mpr rfl) read
        exact ⟨started ++ events, after, Program.bind_ok runs⟩
    | agent name attach =>
        rw [runs] at shell
        cases shell
    | job nested =>
        rw [runs] at shell
        cases shell

theorem tryKillSession_goesWell (willing : before.Willing) :
    ∃ after, tryKillSession outside job before = (.ok (), after) ∧ after.Willing ∧
      after.world.state = before.world.state ∧ after.runbookCache = before.runbookCache ∧
      after.readings = before.readings := by
  unfold tryKillSession
  cases job.sessionId with
  | none => exact ⟨before, rfl, willing, rfl, rfl, rfl⟩
  | some sessionId =>
      exact ⟨_, tryEffect_killSession outside sessionId before, fun n => willing (n + 1), rfl, rfl,
        rfl⟩

/-- An agent that is alive is told to go on. -/
theorem nudgeAgent_goesWell {step message : String} {agentId : AgentId}
    (willing : before.Willing) :
    ∃ events after, nudgeAgent outside id step agentId message before = (.ok events, after) := by
  obtain ⟨_, told, sends, willing, -⟩ :=
    @execute_goesWell outside before (.sendToAgent agentId message) rfl willing
  rw [nudgeAgent, Program.bind_ok sends]
  exact ⟨_, _, rfl⟩

end Handler

/-! ## All or nothing -/

/-- What a resumption finds before it changes anything: the job, the step at which it goes on,
and a message if the step runs an agent. -/
structure Accepted (outside : Outside) (before : Runtime) (id : JobId) (message : Option String)
    (job : Job) (step : String) (runbook : Runbook) (stepDef : StepDef) : Prop where
  found : before.world.state.getJob id = some job
  resumes : job.resumeStep = some step
  known : before.runbookAt outside job.runbookHash = some runbook
  defined : (runbook.getJob job.kind).bind (·.getStep step) = some stepDef
  told : stepDef.run.isAgent = true → message.isSome = true ∨ job.step = "failed"

def StepDef.toldMessage (stepDef : StepDef) (message : Option String) : Option String :=
  if stepDef.run.isAgent then some (message.getD "Retrying") else none

namespace Handler

variable (outside : Outside) {before : Runtime} {id : JobId} {job : Job} {step : String}
  {message : Option String} {vars : HashMap String} {kill : Bool} {runbook : Runbook}
  {stepDef : StepDef}

theorem resumeMessage_told (told : stepDef.run.isAgent = true →
    message.isSome = true ∨ job.step = "failed") :
    resumeMessage job stepDef message before = (.ok (stepDef.toldMessage message), before) := by
  unfold resumeMessage StepDef.toldMessage
  by_cases agent : stepDef.run.isAgent = true
  · rw [if_pos agent, if_pos agent]
    cases message with
    | some text => rfl
    | none =>
        have failed := (told agent).resolve_left Bool.false_ne_true
        dsimp only
        rw [if_pos failed]
        rfl
  · rw [if_neg agent, if_neg agent]
    rfl

/-- A resumption that is accepted changes the job and goes on. -/
theorem handleJobResume_accepted
    (accepted : Accepted outside before id message job step runbook stepDef) :
    ∃ runbookCache : HashMap Runbook,
      (∀ hash, ({ before with runbookCache } : Runtime).runbookAt outside hash =
        before.runbookAt outside hash) ∧
      handleJobResume outside id message vars kill before =
        (resumeAt outside job step stepDef (stepDef.toldMessage message) kill >>= fun resumed =>
          pure (job.backEvents id step ++ resumed))
          (({ before with runbookCache } : Runtime).prepared outside job id step vars) := by
  obtain ⟨found, resumes, known, defined, told⟩ := accepted
  obtain ⟨jobDef, jobDefined, stepDefined⟩ := Option.bind_eq_some_iff.mp defined
  obtain ⟨runbookCache, loads, aside, -⟩ := cachedRunbook_known outside known
  have required : requireJob id before = (.ok job, before) := requireJob_eq_ok.mpr ⟨rfl, found⟩
  refine ⟨runbookCache, aside.runbooks, ?_⟩
  rw [handleJobResume, Program.bind_ok required, resumes, require_some, Program.pure_bind,
    Program.bind_ok loads, jobDefined, require_some, Program.pure_bind, stepDefined, require_some,
    Program.pure_bind, Program.bind_ok (resumeMessage_told told),
    Program.bind_ok (resetFailed_run outside), Program.bind_ok (updateVars_run outside)]
  rfl

/-- One that is not has changed nothing when it ends. -/
theorem handleJobResume_refused
    (refused : ∀ job step runbook stepDef,
      ¬Accepted outside before id message job step runbook stepDef) :
    ∃ error after, handleJobResume outside id message vars kill before = (.error error, after) ∧
      after.world.state = before.world.state := by
  unfold handleJobResume
  cases found : before.world.state.getJob id with
  | none =>
      have missing : requireJob id before = (.error (.jobNotFound id), before) := by
        rw [requireJob, readState, Program.bind_ok (Program.run_read _ _), found]
        rfl
      exact ⟨_, _, Program.bind_error missing, rfl⟩
  | some job =>
      have required : requireJob id before = (.ok job, before) := requireJob_eq_ok.mpr ⟨rfl, found⟩
      rw [Program.bind_ok required]
      cases resumes : job.resumeStep with
      | none => exact ⟨_, _, rfl, rfl⟩
      | some step =>
          rw [require_some, Program.pure_bind]
          cases known : before.runbookAt outside job.runbookHash with
          | none =>
              obtain ⟨error, unknown⟩ := cachedRunbook_unknown outside known
              exact ⟨_, _, Program.bind_error unknown, rfl⟩
          | some runbook =>
              obtain ⟨runbookCache, loads, -⟩ := cachedRunbook_known outside known
              rw [Program.bind_ok loads]
              cases jobDefined : runbook.getJob job.kind with
              | none => exact ⟨_, _, rfl, rfl⟩
              | some jobDef =>
                  rw [require_some, Program.pure_bind]
                  cases stepDefined : jobDef.getStep step with
                  | none => exact ⟨_, _, rfl, rfl⟩
                  | some stepDef =>
                      rw [require_some, Program.pure_bind]
                      have defined : (runbook.getJob job.kind).bind (·.getStep step) =
                          some stepDef := by
                        rw [jobDefined]
                        exact stepDefined
                      have silent : ¬(stepDef.run.isAgent = true →
                          message.isSome = true ∨ job.step = "failed") := fun told =>
                        refused job step runbook stepDef ⟨found, resumes, known, defined, told⟩
                      push Not at silent
                      obtain ⟨agent, noMessage, going⟩ := silent
                      cases message with
                      | some text => exact (noMessage rfl).elim
                      | none =>
                          unfold resumeMessage
                          rw [if_pos agent]
                          dsimp only
                          rw [if_neg going]
                          exact ⟨_, _, rfl, rfl⟩

end Handler

/-- A request that is invalid leaves the job as it was, and the events of one that is carried
out tell the variables and the step of the job. -/
structure AllOrNothing (outside : Outside) (id : JobId) (message : Option String)
    (vars : HashMap String) (kill : Bool) (job : Job) (before : Runtime) : Prop where
  refused : ∀ error after,
    Handler.handleJobResume outside id message vars kill before = (.error error, after) →
      error.isInvalid = true →
        after.world.state.jobs[job.id]? = before.world.state.jobs[job.id]?
  resumed : ∀ events after,
    Handler.handleJobResume outside id message vars kill before = (.ok events, after) →
      (foldEvents outside.order before.world.state events).place job.id =
        after.world.state.place job.id

/-- The same state and the same runbooks; nothing is said of what the adapters answer. -/
def Runtime.SameStart (before other : Runtime) : Prop :=
  other.world.state = before.world.state ∧ other.runbookCache = before.runbookCache

theorem Runtime.SameStart.accepted {outside : Outside} {before other : Runtime} {id : JobId}
    {message : Option String} {job : Job} {step : String} {runbook : Runbook} {stepDef : StepDef}
    (same : before.SameStart other) :
    Accepted outside other id message job step runbook stepDef ↔
      Accepted outside before id message job step runbook stepDef := by
  obtain ⟨state, cache⟩ := same
  have known := Runtime.runbookAt_congr outside cache (congrArg (·.runbooks) state)
    job.runbookHash
  constructor
  · rintro ⟨found, resumes, knows, defined, told⟩
    exact ⟨state ▸ found, resumes, known ▸ knows, defined, told⟩
  · rintro ⟨found, resumes, knows, defined, told⟩
    exact ⟨state.symm ▸ found, resumes, known.symm ▸ knows, defined, told⟩

/-- What can be carried out: a command, or an agent that is defined or can be told. -/
def RunDirective.GoesOn (runbook : Runbook) (kill : Bool) (agents : List AgentId) :
    RunDirective → Prop
  | shell _ => True
  | agent name _ => (∃ agentDef, runbook.getAgent name = some agentDef) ∨ kill = false ∧ agents ≠ []
  | job _ => False

def RunDirective.isNested : RunDirective → Bool
  | job _ => true
  | _ => false

/-- If a step can go on or runs another job, no variable is given that the job does not have
already; and no job goes back to a step that runs another job. -/
def ResumesWhole (outside : Outside) (id : JobId) (message : Option String)
    (vars : HashMap String) (kill : Bool) (job : Job) (before : Runtime) : Prop :=
  ∀ step runbook stepDef, Accepted outside before id message job step runbook stepDef →
    (stepDef.run.GoesOn runbook kill (job.stepAgents step) ∨ stepDef.run.isNested = true →
      job.HasVars vars) ∧
    (stepDef.run.isNested = true → ∀ epochMs, job.backTo id step epochMs = job)

section Whole

variable {outside : Outside} {before : Runtime} {id : JobId} {job : Job} {step : String}
  {message : Option String} {vars : HashMap String} {kill : Bool} {runbook : Runbook}
  {stepDef : StepDef}

theorem Accepted.stored (accepted : Accepted outside before id message job step runbook stepDef)
    (keyed : before.world.state.Keyed) : before.world.state.jobs[job.id]? = some job :=
  getJob_stored keyed accepted.found

/-- Of the events that are handed back only the update of variables is missing. -/
theorem place_resumed_iff {events : List Event} {prior after : Runtime}
    (same : prior.world.state = before.world.state)
    (found : before.world.state.jobs[job.id]? = some job)
    (ran : Handler.resumeAt outside job step stepDef (stepDef.toldMessage message) kill
      (prior.prepared outside job id step vars) = (.ok events, after)) :
    (foldEvents outside.order before.world.state (job.backEvents id step ++ events)).place job.id =
        after.world.state.place job.id ↔ job.HasVars vars := by
  have back : Advances (job.backEvents id step) prior.world.state
      (prior.wentBack outside job id step).world.state := prior.wentBack_advances outside
  have onward := Handler.resumeAt_advances outside ran
  have kept : ∀ event ∈ job.backEvents id step ++ events, event.rewritesVars = false :=
    fun event member => (List.mem_append.mp member).elim (back.1 event) (onward.1 event)
  have folded := (Advances.fold outside.order before.world.state kept).2 job.id
  have revised := @Runtime.place_revised outside job vars (prior.wentBack outside job id step) job.id
  have live := onward.2 job.id
  have place : before.world.state.place job.id = some (job.vars, job.step) :=
    congrArg (Option.map _) found
  rw [show (prior.prepared outside job id step vars).world.state.place job.id = _ from revised,
    back.2 job.id, same, place] at live
  rw [place] at folded
  rw [folded, live]
  simp only [Option.map_some, if_true, List.foldl_append, Option.some.injEq, Prod.mk.injEq,
    and_true]
  exact eq_comm

/-- Only what can be neither run again nor told to go on is found invalid then. -/
theorem resumeAt_invalid {prior after : Runtime} {error : RuntimeError} {current : Job}
    (plans : prior.PlansValid)
    (found : prior.world.state.getJob job.id = some current)
    (same : current.kind = job.kind ∧ current.runbookHash = job.runbookHash)
    (known : prior.runbookAt outside job.runbookHash = some runbook)
    (defined : (runbook.getJob job.kind).bind (·.getStep step) = some stepDef)
    (ran : Handler.resumeAt outside job step stepDef (stepDef.toldMessage message) kill prior =
      (.error error, after)) (invalid : error.isInvalid = true) :
    (∃ nested, stepDef.run = .job nested) ∧ after = prior := by
  obtain ⟨jobDef, jobDefined, stepDefined⟩ := Option.bind_eq_some_iff.mp defined
  have valid (spared : error.isInvalid = false) : False := by
    rw [spared] at invalid
    cases invalid
  unfold Handler.resumeAt StepDef.toldMessage StepDef.agentName at ran
  cases runs : stepDef.run with
  | shell command =>
      have shell : stepDef.isShell = true := by
        unfold StepDef.isShell
        rw [runs]
      rw [runs] at ran
      have resumes : Handler.handleShellResume outside job step prior = (.error error, after) := by
        unfold StepDef.isShell at ran
        rw [runs] at ran
        exact ran
      obtain ⟨killed, kills, state, -, cache⟩ := Handler.tryKillSession_run outside job prior
      have found' : killed.world.state.getJob job.id = some current := state.symm ▸ found
      have known' : killed.runbookAt outside current.runbookHash = some runbook := by
        rw [Runtime.runbookAt_congr outside cache (congrArg (·.runbooks) state), same.2]
        exact known
      rw [Handler.handleShellResume, Program.bind_ok kills] at resumes
      exact (valid (Handler.startStep_errs outside found' known' (same.1.symm ▸ jobDefined)
        stepDefined shell resumes).valid).elim
  | agent agentName attach =>
      rw [runs] at ran
      exact (valid (Handler.handleAgentResume_errs outside plans ran)).elim
  | job nested =>
      rw [runs] at ran
      unfold StepDef.isShell at ran
      rw [runs] at ran
      cases ran
      exact ⟨⟨nested, rfl⟩, rfl⟩

/-- An agent that is spawned is defined. -/
theorem respawnAgent_named {prior after : Runtime} {events : List Event} {current : Job}
    {agentName : String} (found : prior.world.state.getJob job.id = some current)
    (same : current.runbookHash = job.runbookHash)
    (known : prior.runbookAt outside job.runbookHash = some runbook)
    (ran : Handler.respawnAgent outside job agentName prior = (.ok events, after)) :
    ∃ agentDef, runbook.getAgent agentName = some agentDef := by
  obtain ⟨killed, kills, state, -, cache⟩ := Handler.tryKillSession_run outside job prior
  have known' : killed.runbookAt outside current.runbookHash = some runbook := by
    rw [Runtime.runbookAt_congr outside cache (congrArg (·.runbooks) state), same]
    exact known
  unfold Handler.respawnAgent Handler.spawnAgent at ran
  rw [Program.bind_ok kills] at ran
  obtain ⟨read, _, required, rest⟩ := Program.bind_eq_ok.mp ran
  obtain ⟨rfl, present⟩ := Handler.requireJob_eq_ok.mp required
  rw [state, found] at present
  cases present
  obtain ⟨other, _, looked, rest⟩ := Program.bind_eq_ok.mp rest
  obtain ⟨knows, runbookCache, rfl⟩ := Handler.cachedRunbook_eq_ok outside looked
  cases known'.symm.trans knows
  obtain ⟨agentDef, _, defined, rest⟩ := Program.bind_eq_ok.mp rest
  exact ⟨agentDef, (Handler.require_eq_ok defined).1⟩

/-- An agent that has gone on was told to, or is defined. -/
theorem resumeAt_agent_ok {prior after : Runtime} {events : List Event} {current : Job}
    {agentName : String} {attach : Option Bool} (runs : stepDef.run = .agent agentName attach)
    (found : prior.world.state.getJob job.id = some current)
    (same : current.runbookHash = job.runbookHash)
    (known : prior.runbookAt outside job.runbookHash = some runbook)
    (ran : Handler.resumeAt outside job step stepDef (stepDef.toldMessage message) kill prior =
      (.ok events, after)) :
    (∃ agentDef, runbook.getAgent agentName = some agentDef) ∨
      kill = false ∧ job.stepAgents step ≠ [] := by
  unfold Handler.resumeAt StepDef.toldMessage StepDef.agentName at ran
  rw [runs] at ran
  have resumes : Handler.handleAgentResume outside job step agentName (message.getD "Retrying") kill
      prior = (.ok events, after) := ran
  have respawns (respawned : Handler.respawnAgent outside job agentName prior.afterReading =
      (.ok events, after)) : ∃ agentDef, runbook.getAgent agentName = some agentDef := by
    have found' : prior.afterReading.world.state.getJob job.id = some current := found
    have known' : prior.afterReading.runbookAt outside job.runbookHash = some runbook := known
    exact respawnAgent_named found' same known' respawned
  unfold Handler.handleAgentResume at resumes
  obtain ⟨reading, _, first, rest⟩ := Program.bind_eq_ok.mp resumes
  cases first
  cases latest : (job.stepAgents step).head? with
  | none =>
      rw [latest] at rest
      exact Or.inl (respawns rest)
  | some agentId =>
      rw [latest] at rest
      dsimp only at rest
      split at rest
      · rename_i nudged
        refine Or.inr ⟨?_, ?_⟩
        · rw [Bool.and_eq_true, Bool.not_eq_true'] at nudged
          exact nudged.1
        · intro none
          rw [none] at latest
          cases latest
      · exact Or.inl (respawns rest)

/-- The runtime with adapters that do all they are asked, where every agent works. -/
def Runtime.obliging (epochMs : Nat) (runtime : Runtime) : Runtime :=
  { runtime with
    world := { runtime.world with
      clocks := fun _ => ⟨epochMs, 0⟩
      replies := fun _ => ⟨.ok "session", .ok (), .ok (), .ok ⟨true, ""⟩, .ok ()⟩ }
    readings := fun _ => {
      uuid := "agent"
      bash := fun _ _ => .ok ⟨true, "", ""⟩
      gitTopLevel := fun _ => .ok ⟨true, "/", ""⟩
      userEnv := ∅
      plan := .ok ⟨"agent", ∅, "claude", [], "/", ∅⟩
      runbook := .ok none
      agentState := fun _ => some .working } }

theorem Runtime.obliging_plansValid (epochMs : Nat) (runtime : Runtime) :
    (runtime.obliging epochMs).PlansValid := by
  rintro n error ⟨⟩

theorem Runtime.prepared_willing {prior : Runtime} (willing : prior.Willing) :
    (prior.prepared outside job id step vars).Willing := by
  have emitting {runtime : Runtime} (event : Event) (willing : runtime.Willing) :
      (runtime.emitting outside.order event).Willing := fun n => willing (n + 1)
  unfold prepared revised wentBack
  split <;> split
  · exact emitting _ willing
  · exact willing
  · exact emitting _ (emitting _ willing)
  · exact emitting _ willing

/-- Where the adapters oblige, a command runs again, and an agent goes on that can. -/
theorem resumeAt_obliging {prior : Runtime} {current : Job} (willing : prior.Willing)
    (alive : (prior.readings 0).agentState = fun _ => some .working)
    (planned : ∀ n, ∃ plan, (prior.readings n).plan = .ok plan)
    (found : prior.world.state.getJob job.id = some current)
    (same : current.kind = job.kind ∧ current.runbookHash = job.runbookHash)
    (known : prior.runbookAt outside job.runbookHash = some runbook)
    (defined : (runbook.getJob job.kind).bind (·.getStep step) = some stepDef)
    (can : stepDef.run.GoesOn runbook kill (job.stepAgents step)) :
    ∃ events after, Handler.resumeAt outside job step stepDef (stepDef.toldMessage message) kill
      prior = (.ok events, after) := by
  obtain ⟨jobDef, jobDefined, stepDefined⟩ := Option.bind_eq_some_iff.mp defined
  unfold Handler.resumeAt StepDef.toldMessage StepDef.agentName
  cases runs : stepDef.run with
  | shell command =>
      have shell : stepDef.isShell = true := by
        unfold StepDef.isShell
        rw [runs]
      obtain ⟨killed, kills, willing, state, cache, -⟩ :=
        @Handler.tryKillSession_goesWell outside prior job willing
      have known' : killed.runbookAt outside current.runbookHash = some runbook := by
        rw [Runtime.runbookAt_congr outside cache (congrArg (·.runbooks) state), same.2]
        exact known
      obtain ⟨events, after, starts⟩ := @Handler.startStep_goesWell outside killed job.id current
        runbook jobDef stepDef step job.vars (executionDir job) willing (state.symm ▸ found) known'
        (same.1.symm ▸ jobDefined) stepDefined shell
      refine ⟨events, after, ?_⟩
      change (if stepDef.isShell then _ else _ : Handler (List Event)) prior = _
      rw [if_pos shell, Handler.handleShellResume, Program.bind_ok kills]
      exact starts
  | agent agentName attach =>
      rw [runs] at can
      change ∃ events after, Handler.handleAgentResume outside job step agentName
        (message.getD "Retrying") kill prior = (.ok events, after)
      have respawns (named : ∃ agentDef, runbook.getAgent agentName = some agentDef) :
          ∃ events after, Handler.respawnAgent outside job agentName prior.afterReading =
            (.ok events, after) := by
        obtain ⟨agentDef, named⟩ := named
        have read : prior.afterReading.Willing := willing
        obtain ⟨killed, kills, willing, state, cache, readings⟩ :=
          @Handler.tryKillSession_goesWell outside prior.afterReading job read
        have known' : killed.runbookAt outside current.runbookHash = some runbook := by
          rw [Runtime.runbookAt_congr outside cache (congrArg (·.runbooks) state), same.2]
          exact known
        obtain ⟨plan, plans⟩ := planned 1
        rw [Handler.respawnAgent, Program.bind_ok kills]
        exact Handler.spawnAgent_goesWell outside willing (state.symm ▸ found) known' named
          (by rw [readings]; exact plans)
      have read : Handler.nextReading prior = (.ok (prior.readings 0), prior.afterReading) := rfl
      rw [Handler.handleAgentResume, Program.bind_ok read]
      cases latest : (job.stepAgents step).head? with
      | none =>
          have none : job.stepAgents step = [] := List.head?_eq_none_iff.mp latest
          exact respawns (can.resolve_right fun both => both.2 none)
      | some agentId =>
          dsimp only
          have works : (((prior.readings 0).agentState agentId).map AgentState.isAlive).getD false =
              true := by
            rw [alive]
            rfl
          rw [works, Bool.and_true]
          cases kill with
          | true => exact respawns (can.resolve_right fun both => Bool.false_ne_true both.1.symm)
          | false =>
              have read : prior.afterReading.Willing := willing
              exact Handler.nudgeAgent_goesWell outside read
  | job nested =>
      rw [runs] at can
      exact can.elim

/-- What is left to do where a resumption has been accepted. -/
structure Onward (outside : Outside) (id : JobId) (message : Option String)
    (vars : HashMap String) (kill : Bool) (job : Job) (step : String) (runbook : Runbook)
    (stepDef : StepDef) (before prior : Runtime) : Prop where
  current : prior.world.state.jobs[job.id]? =
    some ((job.backTo id step (before.world.clocks 0).epochMs).applyUpdated vars)
  known : prior.runbookAt outside job.runbookHash = some runbook
  readings : prior.readings = before.readings
  willing : before.Willing → prior.Willing
  goes : Handler.handleJobResume outside id message vars kill before =
    (Handler.resumeAt outside job step stepDef (stepDef.toldMessage message) kill >>= fun resumed =>
      pure (job.backEvents id step ++ resumed)) prior
  places : ∀ events after, Handler.resumeAt outside job step stepDef (stepDef.toldMessage message)
    kill prior = (.ok events, after) →
      ((foldEvents outside.order before.world.state (job.backEvents id step ++ events)).place
        job.id = after.world.state.place job.id ↔ job.HasVars vars)

theorem Accepted.onward (accepted : Accepted outside before id message job step runbook stepDef)
    (keyed : before.world.state.Keyed) :
    ∃ prior, Onward outside id message vars kill job step runbook stepDef before prior := by
  have found := accepted.stored keyed
  obtain ⟨runbookCache, same, goes⟩ :=
    @Handler.handleJobResume_accepted outside before id job step message vars kill runbook stepDef
      accepted
  let start : Runtime := { before with runbookCache }
  obtain ⟨cache, runbooks, readings⟩ := @Runtime.prepared_same outside job id step vars start
  refine ⟨start.prepared outside job id step vars, ?_, ?_, readings, ?_, goes, ?_⟩
  · exact start.prepared_job outside found
  · rw [Runtime.runbookAt_congr outside cache runbooks, same]
    exact accepted.known
  · intro willing
    have willing' : start.Willing := willing
    exact Runtime.prepared_willing willing'
  · intro events after ran
    have state : start.world.state = before.world.state := rfl
    exact place_resumed_iff state found ran

namespace Onward

variable {prior : Runtime}

theorem same (epochMs : Nat) :
    ((job.backTo id step epochMs).applyUpdated vars).kind = job.kind ∧
      ((job.backTo id step epochMs).applyUpdated vars).runbookHash = job.runbookHash :=
  (job.backTo_same id step epochMs).2

/-- Where it cannot go wrong, a resumption is all or nothing. -/
theorem whole (onward : Onward outside id message vars kill job step runbook stepDef before prior)
    (accepted : Accepted outside before id message job step runbook stepDef)
    (found : before.world.state.jobs[job.id]? = some job) (plans : before.PlansValid)
    (kept : stepDef.run.GoesOn runbook kill (job.stepAgents step) ∨ stepDef.run.isNested = true →
      job.HasVars vars)
    (stays : stepDef.run.isNested = true → ∀ epochMs, job.backTo id step epochMs = job) :
    AllOrNothing outside id message vars kill job before := by
  have present := getJob_found onward.current
  constructor
  · intro error after ran invalid
    rw [onward.goes] at ran
    rcases Program.bind_eq_error.mp ran with failed | ⟨_, _, _, returned⟩
    · have plansPrior : prior.PlansValid := fun n => onward.readings ▸ plans n
      obtain ⟨⟨nested, runs⟩, rfl⟩ := resumeAt_invalid plansPrior present (same _) onward.known
        accepted.defined failed invalid
      have isNested : stepDef.run.isNested = true := by
        rw [runs]
        rfl
      rw [onward.current, found]
      exact congrArg some (Job.applyUpdated_backTo_eq.mpr
        ⟨stays isNested _, kept (Or.inr isNested)⟩)
    · cases returned
  · intro events after ran
    rw [onward.goes] at ran
    obtain ⟨resumed, _, resumes, returned⟩ := Program.bind_eq_ok.mp ran
    cases returned
    refine (onward.places resumed _ resumes).mpr (kept (Or.inl ?_))
    cases runs : stepDef.run with
    | shell command => trivial
    | agent agentName attach =>
        exact resumeAt_agent_ok runs present (same _).2 onward.known resumes
    | job nested =>
        unfold Handler.resumeAt StepDef.toldMessage StepDef.isShell at resumes
        rw [runs] at resumes
        cases resumes

end Onward

/-- A resumption is all or nothing, whatever the adapters answer, exactly where it gives no
new variable to what can go on, and meets no job in a step. -/
theorem handleJobResume_allOrNothing_iff (keyed : before.world.state.Keyed)
    (found : before.world.state.getJob id = some job) :
    (∀ other, before.SameStart other → other.PlansValid →
      AllOrNothing outside id message vars kill job other) ↔
      ResumesWhole outside id message vars kill job before := by
  have stored : before.world.state.jobs[job.id]? = some job := getJob_stored keyed found
  constructor
  · intro whole step runbook stepDef accepted
    have wellDone (epochMs : Nat) :=
      whole (before.obliging epochMs) ⟨rfl, rfl⟩ (before.obliging_plansValid epochMs)
    have onward (epochMs : Nat) : ∃ prior, Onward outside id message vars kill job step runbook
        stepDef (before.obliging epochMs) prior := by
      have same : before.SameStart (before.obliging epochMs) := ⟨rfl, rfl⟩
      exact (same.accepted.mpr accepted).onward keyed
    have willing (epochMs : Nat) : (before.obliging epochMs).Willing := fun n => ⟨⟨_, rfl⟩, rfl⟩
    have unchanged (nested : stepDef.run.isNested = true) (epochMs : Nat) :
        job.backTo id step epochMs = job ∧ job.HasVars vars := by
      obtain ⟨prior, onward⟩ := onward epochMs
      have fails : Handler.resumeAt outside job step stepDef (stepDef.toldMessage message) kill
          prior = (.error (.invalidRequest
            ("resume not supported for step type in step: " ++ step)), prior) := by
        unfold Handler.resumeAt StepDef.toldMessage StepDef.isShell
        cases runs : stepDef.run with
        | job other => rfl
        | shell | agent =>
            rw [runs] at nested
            cases nested
      have kept := (wellDone epochMs).refused _ prior
        (onward.goes.trans (Program.bind_error fails)) rfl
      rw [onward.current] at kept
      exact Job.applyUpdated_backTo_eq.mp (Option.some.inj (kept.trans stored))
    refine ⟨?_, fun nested epochMs => (unchanged nested epochMs).1⟩
    rintro (can | nested)
    · obtain ⟨prior, onward⟩ := onward 0
      obtain ⟨events, after, ran⟩ := resumeAt_obliging (onward.willing (willing 0))
        (by rw [onward.readings]; rfl) (fun n => by rw [onward.readings]; exact ⟨_, rfl⟩)
        (getJob_found onward.current) (Onward.same _) onward.known accepted.defined can
      refine (onward.places events after ran).mp ((wellDone 0).resumed _ after ?_)
      rw [onward.goes, Program.bind_ok ran]
      rfl
    · exact (unchanged nested 0).2
  · intro whole other same plans
    have keyed' : other.world.state.Keyed := same.1.symm ▸ keyed
    have found' : other.world.state.getJob id = some job := same.1.symm ▸ found
    by_cases accepts : ∃ job step runbook stepDef,
        Accepted outside other id message job step runbook stepDef
    · obtain ⟨job', step, runbook, stepDef, accepted⟩ := accepts
      cases accepted.found.symm.trans found'
      obtain ⟨prior, onward⟩ := @Accepted.onward outside other id _ step message vars kill runbook
        stepDef accepted keyed'
      obtain ⟨kept, stays⟩ := whole step runbook stepDef (same.accepted.mp accepted)
      exact onward.whole accepted (accepted.stored keyed') plans kept stays
    · push Not at accepts
      obtain ⟨error, stopped, fails, state⟩ :=
        @Handler.handleJobResume_refused outside other id message vars kill accepts
      constructor
      · intro _ after ran _
        cases fails.symm.trans ran
        rw [state]
      · intro events after ran
        cases fails.symm.trans ran

end Whole

def oneCommand : Runbook where
  jobs := (∅ : HashMap JobDef).insert "build" {
    kind := "build"
    steps := [{ name := "compile", run := .shell "make" }] }

def compilingState : MaterializedState :=
  ({} : MaterializedState).replay (fun _ => .byKey) (fun _ => ⟨0, 0⟩) 0
    [.runbookLoaded "hash" 1 .null,
      .jobCreated "b1" "build" "build" "hash" "/" ∅ "compile" 0 "" none]

theorem compilingState_keyed : compilingState.Keyed := by
  have own : compilingState.jobs.toList.all (fun entry => entry.1 == entry.2.id) = true := by
    decide +kernel
  intro key job stored
  exact (beq_iff_eq.mp (List.all_eq_true.mp own (key, job)
    (Std.ExtTreeMap.mem_toList_iff_getElem?_eq_some.mpr stored))).symm

theorem compilingState_job : ∃ job, compilingState.getJob "b1" = some job ∧
    job.runbookHash = "hash" ∧ job.kind = "build" ∧ job.step = "compile" := by
  have found : (compilingState.getJob "b1").map (fun job => (job.runbookHash, job.kind, job.step)) =
      some ("hash", "build", "compile") := by
    decide +kernel
  obtain ⟨job, got, same⟩ := Option.map_eq_some_iff.mp found
  exact ⟨job, got, by simpa using same⟩

/-- Without new variables the command runs again, whatever the adapters answer. -/
theorem handleJobResume_allOrNothing_command :
    ∃ job, compilingState.getJob "b1" = some job ∧
      ∀ other, (Runtime.idle oneCommand compilingState).SameStart other → other.PlansValid →
        AllOrNothing (.plain oneCommand) "b1" none ∅ false job other := by
  obtain ⟨job, found, hash, kind, step⟩ := compilingState_job
  refine ⟨job, found, (@handleJobResume_allOrNothing_iff (.plain oneCommand)
    (.idle oneCommand compilingState) "b1" job none ∅ false compilingState_keyed found).mpr ?_⟩
  intro resumed runbook stepDef accepted
  have none : job.HasVars ∅ := rfl
  have known : (Runtime.idle oneCommand compilingState).runbookAt (.plain oneCommand) "hash" =
      some oneCommand := rfl
  have same : runbook = oneCommand := by
    have knows := accepted.known
    rw [hash, known] at knows
    exact (Option.some.inj knows).symm
  have resumes : job.resumeStep = some "compile" := by
    have going : job.step ≠ "failed" := by
      rw [step]
      decide
    rw [Job.resumeStep, if_neg going, step]
  obtain ⟨jobDef, jobDefined, stepDefined⟩ := Option.bind_eq_some_iff.mp accepted.defined
  cases resumes.symm.trans accepted.resumes
  have steps : oneCommand.getJob "build" = some {
      kind := "build"
      steps := [{ name := "compile", run := .shell "make" }] } := rfl
  rw [kind, same, steps] at jobDefined
  cases jobDefined
  cases stepDefined
  exact ⟨fun _ => none, fun nested => Bool.noConfusion nested⟩

/-- A new variable is written to the job, but the events do not tell it. -/
theorem resumed_var_lost : ¬∀ (outside : Outside) (before : Runtime) (id : JobId)
    (message : Option String) (vars : HashMap String) (kill : Bool) (job : Job),
    before.world.state.Keyed → before.world.state.getJob id = some job →
      AllOrNothing outside id message vars kill job before := by
  intro whole
  obtain ⟨job, found, -⟩ := compilingState_job
  have kept := (whole (.plain oneCommand) (.idle oneCommand compilingState) "b1" none
    ((∅ : HashMap String).insert "mode" "fast") false job compilingState_keyed found).resumed
  have ran : ∃ events after, Handler.handleJobResume (.plain oneCommand) "b1" none
      ((∅ : HashMap String).insert "mode" "fast") false (.idle oneCommand compilingState) =
        (.ok events, after) ∧
      (after.world.state.place "b1").map (·.1.toList) = some [("mode", "fast")] ∧
      ((foldEvents .byKey compilingState events).place "b1").map (·.1.toList) = some [] := by
    iterate 2 apply Exists.intro
    with_unfolding_all exact ⟨rfl, rfl, rfl⟩
  obtain ⟨events, after, resumed, live, folded⟩ := ran
  have told := kept events after resumed
  have named : job.id = "b1" := by
    have names : (compilingState.getJob "b1").map (·.id) = some "b1" := by decide +kernel
    rw [found] at names
    exact Option.some.inj names
  rw [named] at told
  have lost := folded.symm.trans ((congrArg (Option.map _) told).trans live)
  cases lost

end OddJobs
