import OddJobs.Engine.Course

/-!
# Moves of the job handlers

Every handler of the job lifecycle moves along every relation of a course whose
bounds it keeps to.  What it applies beyond the start and the failure of steps depends
on the edge that the job takes.
-/

namespace OddJobs

open Library

/-- What may happen when a job starts a step, fails in it, or leaves it. -/
structure Bounds.Covers (bounds : Bounds) (id : JobId) : Prop where
  started : ∀ step agentId agentName, bounds.event (.stepStarted id step agentId agentName)
  failed : ∀ step error, bounds.event (.stepFailed id step error)
  fails : bounds.event (.jobAdvanced id "failed")
  session : ∀ sessionId, bounds.event (.sessionCreated sessionId (.job id))
  sessionless : ∀ sessionId, bounds.event (.sessionDeleted sessionId)
  removed : ∀ workspaceId, bounds.event (.workspaceDeleted workspaceId)
  liveness : bounds.timer (Timer.liveness id)
  exitDeferred : bounds.timer (Timer.exitDeferred id)

/-- What may happen to a job that is not started by a step: its agent may be spawned, and it may
fail in its step or leave it. -/
structure Bounds.Serves (bounds : Bounds) (id : JobId) : Prop where
  spawned : ∀ step agentId agentName,
    bounds.event (.stepStarted id step (some agentId) (some agentName))
  failed : ∀ step error, bounds.event (.stepFailed id step error)
  fails : bounds.event (.jobAdvanced id "failed")
  session : ∀ sessionId, bounds.event (.sessionCreated sessionId (.job id))
  sessionless : ∀ sessionId, bounds.event (.sessionDeleted sessionId)
  removed : ∀ workspaceId, bounds.event (.workspaceDeleted workspaceId)
  liveness : bounds.timer (Timer.liveness id)
  exitDeferred : bounds.timer (Timer.exitDeferred id)

theorem Bounds.Covers.serves {bounds : Bounds} {id : JobId} (covers : bounds.Covers id) :
    bounds.Serves id where
  spawned := fun _ _ _ => covers.started _ _ _
  failed := covers.failed
  fails := covers.fails
  session := covers.session
  sessionless := covers.sessionless
  removed := covers.removed
  liveness := covers.liveness
  exitDeferred := covers.exitDeferred

/-- What may happen when a job is completed. -/
structure Bounds.Completes (bounds : Bounds) (job : Job) : Prop where
  advances : job.isTerminal = false → bounds.event (.jobAdvanced job.id "done")
  completed : bounds.event (.stepCompleted job.id job.step)
  ends : bounds.ends job.id "done"

/-- What may happen when a job is cancelled for good. -/
structure Bounds.Cancels (bounds : Bounds) (job : Job) : Prop where
  advances : job.isTerminal = false → bounds.event (.jobAdvanced job.id "cancelled")
  ends : bounds.ends job.id "cancelled"

/-! ## Edges -/

/-- The edge that a job takes out of its step. -/
inductive Route where
  | start (step : String)
  /-- The job enters a step, and is completed there. -/
  | complete (step : String)
  | cancel
  | fail
  deriving DecidableEq, Repr

def Job.doneRoute (job : Job) (jobDef : Option JobDef) : Route :=
  match (jobDef.bind (·.getStep job.step)).bind (·.onDone) with
  | some transition =>
      let next := transition.stepName
      if !(jobDef.bind (·.getStep next)).isSome && (next == "done" || next == "failed") then
        .complete next
      else .start next
  | none =>
      match jobDef.bind (·.onDone) with
      | some onDone => if job.step ≠ onDone.stepName then .start onDone.stepName else .complete "done"
      | none => if job.cancelling then .cancel else .complete "done"

def Job.failRoute (job : Job) (jobDef : Option JobDef) : Route :=
  match (jobDef.bind (·.getStep job.step)).bind (·.onFail) with
  | some onFail => .start onFail.stepName
  | none =>
      match jobDef.bind (·.onFail) with
      | some onFail => if job.step ≠ onFail.stepName then .start onFail.stepName else .fail
      | none => .fail

def Job.cancelRoute (job : Job) (jobDef : Option JobDef) : Route :=
  match (jobDef.bind (·.getStep job.step)).bind (·.onCancel) with
  | some onCancel => .start onCancel.stepName
  | none =>
      match jobDef.bind (·.onCancel) with
      | some onCancel => if job.step ≠ onCancel.stepName then .start onCancel.stepName else .cancel
      | none => .cancel

theorem Job.cancelRoute_cases (job : Job) (jobDef : Option JobDef) :
    (∃ step, job.cancelRoute jobDef = .start step) ∨ job.cancelRoute jobDef = .cancel := by
  unfold Job.cancelRoute
  split
  · exact .inl ⟨_, rfl⟩
  · split
    · split
      · exact .inl ⟨_, rfl⟩
      · exact .inr rfl
    · exact .inr rfl

def Route.Within (bounds : Bounds) (job : Job) : Route → Prop
  | start step => bounds.event (.jobAdvanced job.id step)
  | complete step => bounds.event (.jobAdvanced job.id step) ∧ bounds.Completes job
  | cancel => bounds.Cancels job
  | fail => bounds.ends job.id "failed"

/-- The edge is within bounds under the runbook that the job finds. -/
def Runtime.RouteWithin (outside : Outside) (bounds : Bounds) (runtime : Runtime) (job : Job)
    (route : Option JobDef → Route) : Prop :=
  ∀ runbook, runtime.runbookAt outside job.runbookHash = some runbook →
    (route (runbook.getJob job.kind)).Within bounds job

namespace Course

variable {bounds : Bounds} {outside : Outside} {related : Runtime → Runtime → Prop}
variable (course : Course bounds outside related)

/-- What the job that an id finds does is covered; else nothing is promised. -/
def Finds (bounds : Bounds) (related : Runtime → Runtime → Prop) (id : JobId) : Prop :=
  ∀ (runtime : Runtime) (job : Job), runtime.world.state.getJob id = some job →
    bounds.Covers job.id ∨ ∀ after, related runtime after

include course

/-! ## Reading -/

theorem nextReading_moves : Program.Moves related Handler.nextReading :=
  fun _ => course.aside ⟨rfl, rfl, rfl, rfl, rfl, rfl, fun _ => rfl, 1, fun _ => rfl⟩

theorem readClock_moves : Program.Moves related (Handler.carryOut Exec.readClock) :=
  fun _ => course.aside ⟨rfl, rfl, rfl, rfl, rfl, rfl, fun _ => rfl, 0, fun _ => rfl⟩

theorem readState_moves {α : Type} (view : MaterializedState → α) :
    Program.Moves related (Handler.readState view) :=
  Program.moves_read course.toClosed _

theorem require_moves {α : Type} (error : RuntimeError) (value : Option α) :
    Program.Moves related (Handler.require error value) := by
  cases value with
  | none => exact Program.moves_throw course.toClosed _
  | some value => exact Program.moves_pure course.toClosed _

theorem requireJob_moves (id : JobId) : Program.Moves related (Handler.requireJob id) :=
  (course.readState_moves _).bind course.toClosed fun _ => course.require_moves _ _

/-- Looking up a runbook changes no answer of a later look. -/
theorem cachedRunbook_moves (hash : String) :
    Program.Moves related (Handler.cachedRunbook outside hash) := by
  intro runtime
  cases known : runtime.runbookAt outside hash with
  | none =>
      obtain ⟨error, failed⟩ := Handler.cachedRunbook_unknown outside known
      rw [failed]
      exact course.refl runtime
  | some runbook =>
      obtain ⟨_, ran, aside, _⟩ := Handler.cachedRunbook_known outside known
      rw [ran]
      exact course.aside aside

/-- What follows a look at a runbook may rely on what is found. -/
theorem withRunbook_moves {α : Type} {hash : String} {next : Runbook → Handler α}
    {runtime : Runtime}
    (moves : ∀ runbook, runtime.runbookAt outside hash = some runbook →
      Program.Moves related (next runbook)) :
    related runtime ((Handler.cachedRunbook outside hash >>= next) runtime).2 := by
  cases known : runtime.runbookAt outside hash with
  | none =>
      obtain ⟨error, failed⟩ := Handler.cachedRunbook_unknown outside known
      rw [Program.bind_error failed]
      exact course.refl runtime
  | some runbook =>
      obtain ⟨_, ran, aside, _⟩ := Handler.cachedRunbook_known outside known
      rw [Program.bind_ok ran]
      exact course.trans (course.aside aside) (moves runbook known _)

theorem registerAgent_moves (agentId : AgentId) (owner : OwnerId) :
    Program.Moves related (Handler.registerAgent agentId owner) :=
  fun _ => course.aside ⟨rfl, rfl, rfl, rfl, rfl, rfl, fun _ => rfl, 0, fun _ => rfl⟩

theorem deregisterAgent_moves (agentId : AgentId) :
    Program.Moves related (Handler.deregisterAgent agentId) :=
  fun _ => course.aside ⟨rfl, rfl, rfl, rfl, rfl, rfl, fun _ => rfl, 0, fun _ => rfl⟩

/-! ## Starting a step -/

theorem emitNotify_moves (job : Job) (template : Option String) :
    Program.Moves related (Handler.emitNotify outside job template) := by
  unfold Handler.emitNotify
  cases template with
  | none => exact Program.moves_pure course.toClosed _
  | some template =>
      refine Program.Moves.bind course.toClosed (course.execute_moves ?_) fun _ =>
        Program.moves_pure course.toClosed _
      trivial

theorem spawnAgent_moves {id : JobId} (serves : bounds.Serves id) (agentName : String) :
    Program.Moves related (Handler.spawnAgent outside id agentName) := by
  have closed := course.toClosed
  unfold Handler.spawnAgent
  refine (course.requireJob_moves id).bind closed fun job => ?_
  refine (course.cachedRunbook_moves _).bind closed fun runbook => ?_
  refine (course.require_moves _ _).bind closed fun agentDef => ?_
  refine course.nextReading_moves.bind closed fun reading => ?_
  cases reading.plan with
  | error error => exact Program.moves_throw closed _
  | ok plan =>
      refine (course.registerAgent_moves _ _).bind closed fun _ => ?_
      refine Program.Moves.bind closed (course.executeAll_moves ?_) fun events => ?_
      · intro effect member
        simp only [List.mem_cons, List.not_mem_nil, or_false] at member
        rcases member with rfl | rfl | rfl
        · exact serves.session
        · exact serves.liveness
        · exact serves.spawned _ _ _
      · unfold Handler.buildAgentNotifyEffect
        cases agentDef.notify.onStart with
        | none => exact Program.moves_pure closed _
        | some template =>
            refine Program.Moves.bind closed (course.execute_moves ?_) fun _ =>
              Program.moves_pure closed _
            trivial

theorem runStep_moves {id : JobId} (serves : bounds.Serves id) (job : Job) (stepDef : StepDef)
    (stepName : String) (input : HashMap String) (workspacePath : PathBuf) :
    Program.Moves related
      (Handler.runStep outside job id stepDef stepName input workspacePath) := by
  unfold Handler.runStep
  cases stepDef.run with
  | shell command =>
      refine course.nextReading_moves.bind course.toClosed fun reading => course.executeAll_moves ?_
      intro effect member
      rw [List.mem_singleton.mp member]
      trivial
  | agent agent attach => exact course.spawnAgent_moves serves agent
  | job nested => exact Program.moves_throw course.toClosed _

omit course in
theorem cancelTimerEffects_within {job : Job} (serves : bounds.Serves job.id) :
    ∀ effect ∈ Steps.cancelTimerEffects job, effect.Within bounds := by
  intro effect member
  unfold Steps.cancelTimerEffects at member
  simp only [List.mem_cons, List.not_mem_nil, or_false] at member
  rcases member with rfl | rfl
  · exact serves.liveness
  · exact serves.exitDeferred

omit course in
theorem sessionEffects_within {job : Job} (serves : bounds.Serves job.id) :
    ∀ effect ∈ Steps.sessionEffects job, effect.Within bounds := by
  intro effect member
  unfold Steps.sessionEffects at member
  split at member
  · simp only [List.mem_cons, List.not_mem_nil, or_false] at member
    rcases member with rfl | rfl
    · trivial
    · exact serves.sessionless _
  · cases member

omit course in
theorem failureEffects_within {job : Job} (serves : bounds.Serves job.id) (error : String) :
    ∀ effect ∈ Steps.failureEffects job error, effect.Within bounds := by
  intro effect member
  unfold Steps.failureEffects at member
  simp only [List.mem_append, List.mem_cons, List.not_mem_nil, or_false] at member
  rcases member with (timer | (rfl | rfl)) | session
  · exact cancelTimerEffects_within serves effect timer
  · exact serves.fails
  · exact serves.failed _ _
  · exact sessionEffects_within serves effect session

theorem startStep_moves {id : JobId} (covers : bounds.Covers id) (finds : Finds bounds related id)
    (stepName : String) (input : HashMap String) (workspacePath : PathBuf) :
    Program.Moves related (Handler.startStep outside id stepName input workspacePath) := by
  have closed := course.toClosed
  unfold Handler.startStep
  refine Program.Moves.bindOf closed (course.requireJob_moves id) fun before job after found => ?_
  obtain ⟨rfl, present⟩ := Handler.requireJob_eq_ok.mp found
  rcases finds before job present with owned | anything
  swap
  · exact anything _
  refine ((course.cachedRunbook_moves _).bind closed fun runbook => ?_) before
  refine (course.require_moves _ _).bind closed fun jobDef => ?_
  dsimp only
  split
  · refine (course.executeAll_moves (failureEffects_within owned.serves _)).bind closed fun _ => ?_
    exact (course.emitNotify_moves _ _).bind closed fun _ => Program.moves_pure closed _
  · refine (course.require_moves _ _).bind closed fun stepDef => ?_
    refine Program.Moves.bind closed (course.executeAll_moves ?_) fun _ => ?_
    · intro effect member
      rw [List.mem_singleton.mp member]
      exact covers.started _ _ _
    · exact (course.runStep_moves covers.serves _ _ _ _ _).bind closed fun _ => Program.moves_pure closed _

/-! ## Leaving a step -/

theorem leaveStep_moves {job : Job} (serves : bounds.Serves job.id) (stepDef : Option StepDef) :
    Program.Moves related (Handler.leaveStep outside job stepDef) := by
  have closed := course.toClosed
  unfold Handler.leaveStep
  split
  · unfold Handler.leaveAgentStep
    refine Program.Moves.bind closed (course.execute_moves serves.liveness) fun _ => ?_
    refine Program.Moves.bind closed (course.execute_moves serves.exitDeferred) fun _ => ?_
    cases job.sessionId with
    | none =>
        cases job.stepAgentId with
        | none => exact Program.moves_pure closed _
        | some agentId =>
            exact (course.deregisterAgent_moves agentId).bind closed fun _ =>
              Program.moves_pure closed _
    | some sessionId =>
        have kills : Program.Moves related (do
            let _ ← Handler.execute outside (.killSession sessionId)
            let _ ← Handler.execute outside (.emit (.sessionDeleted sessionId))
            pure () : Handler Unit) := by
          refine Program.Moves.bind closed (course.execute_moves trivial) fun _ => ?_
          refine Program.Moves.bind closed (course.execute_moves ?_) fun _ => ?_
          · exact serves.sessionless sessionId
          · exact Program.moves_pure closed _
        cases job.stepAgentId with
        | none => exact kills
        | some agentId =>
            exact (course.deregisterAgent_moves agentId).bind closed fun _ => kills
  · exact Program.moves_pure closed _

theorem workspaceCleanupEffects_moves (job : Job) :
    Program.Moves related (Handler.workspaceCleanupEffects outside job) := by
  have closed := course.toClosed
  unfold Handler.workspaceCleanupEffects
  refine (course.readState_moves _).bind closed fun owned => ?_
  split
  · exact Program.moves_pure closed _
  · exact (course.readState_moves _).bind closed fun _ => Program.moves_pure closed _

omit course in
theorem workspaceCleanupEffects_within {job : Job} {before after : Runtime}
    {effects : List Effect} (removed : ∀ id, bounds.event (.workspaceDeleted id))
    (ran : Handler.workspaceCleanupEffects outside job before = (.ok effects, after)) :
    ∀ effect ∈ effects, effect.Within bounds := by
  unfold Handler.workspaceCleanupEffects at ran
  obtain ⟨owned, middle, _, rest⟩ := Program.bind_eq_ok.mp ran
  intro effect member
  cases chosen : job.workspaceId.or owned with
  | none =>
      rw [chosen] at rest
      cases rest
      cases member
  | some workspaceId =>
      rw [chosen] at rest
      obtain ⟨present, last, _, returned⟩ := Program.bind_eq_ok.mp rest
      cases returned
      split at member
      · rw [List.mem_singleton.mp member]
        exact removed workspaceId
      · cases member

theorem notifyDone_moves (job : Job) :
    Program.Moves related (Handler.notifyDone outside job) := by
  have closed := course.toClosed
  unfold Handler.notifyDone
  refine (course.cachedRunbook_moves _).attempt.bind closed fun runbook => ?_
  cases runbook with
  | error error => exact Program.moves_pure closed _
  | ok runbook =>
      dsimp only
      split
      · exact Program.moves_pure closed _
      · exact course.emitNotify_moves _ _

/-! ## Ending a job -/

omit course in
theorem completionEffects_within {job : Job} (serves : bounds.Serves job.id)
    (completes : bounds.Completes job) :
    ∀ effect ∈ Steps.completionEffects job, effect.Within bounds := by
  intro effect member
  unfold Steps.completionEffects at member
  simp only [List.mem_append, List.mem_cons, List.not_mem_nil, or_false] at member
  rcases member with ((timer | advance) | rfl) | session
  · exact cancelTimerEffects_within serves effect timer
  · split at advance
    · cases advance
    · rename_i going
      rw [List.mem_singleton.mp advance]
      exact completes.advances (Bool.eq_false_iff.mpr going)
  · exact completes.completed
  · exact sessionEffects_within serves effect session

omit course in
theorem cancellationEffects_within {job : Job} (serves : bounds.Serves job.id)
    (cancels : bounds.Cancels job) :
    ∀ effect ∈ Steps.cancellationEffects job, effect.Within bounds := by
  intro effect member
  unfold Steps.cancellationEffects at member
  simp only [List.mem_append, List.mem_cons, List.not_mem_nil, or_false] at member
  rcases member with ((timer | advance) | rfl) | session
  · exact cancelTimerEffects_within serves effect timer
  · split at advance
    · cases advance
    · rename_i going
      rw [List.mem_singleton.mp advance]
      exact cancels.advances (Bool.eq_false_iff.mpr going)
  · exact serves.failed _ _
  · exact sessionEffects_within serves effect session

theorem completeJob_moves {job : Job} (serves : bounds.Serves job.id)
    (completes : bounds.Completes job) :
    Program.Moves related (Handler.completeJob outside job) := by
  have closed := course.toClosed
  unfold Handler.completeJob
  refine Program.Moves.bindOf closed (course.workspaceCleanupEffects_moves job)
    fun before cleanup after ran => ?_
  have cleans := workspaceCleanupEffects_within serves.removed ran
  refine (Program.Moves.bind closed (course.executeAll_moves ?_) fun events => ?_) after
  · intro effect member
    rcases List.mem_append.mp member with completing | cleanup
    · exact completionEffects_within serves completes effect completing
    · exact cleans effect cleanup
  · refine (course.settles job.id "done" completes.ends).bind closed fun settled => ?_
    exact (course.notifyDone_moves job).bind closed fun _ => Program.moves_pure closed _

theorem terminateCancelled_moves {job : Job} (serves : bounds.Serves job.id)
    (cancels : bounds.Cancels job) :
    Program.Moves related (Handler.terminateCancelled outside job) := by
  have closed := course.toClosed
  unfold Handler.terminateCancelled
  refine Program.Moves.bindOf closed (course.workspaceCleanupEffects_moves job)
    fun before cleanup after ran => ?_
  have cleans := workspaceCleanupEffects_within serves.removed ran
  refine (Program.Moves.bind closed (course.executeAll_moves ?_) fun events => ?_) after
  · intro effect member
    rcases List.mem_append.mp member with cancelling | cleanup
    · exact cancellationEffects_within serves cancels effect cancelling
    · exact cleans effect cleanup
  · refine (course.settles job.id "cancelled" cancels.ends).bind closed fun _ => ?_
    exact Program.moves_pure closed _

theorem terminateFailed_moves {job : Job} (serves : bounds.Serves job.id)
    (ends : bounds.ends job.id "failed") (error : String) :
    Program.Moves related (Handler.terminateFailed outside job error) := by
  have closed := course.toClosed
  unfold Handler.terminateFailed
  refine (course.executeAll_moves (failureEffects_within serves error)).bind closed fun _ => ?_
  exact (course.settles job.id "failed" ends).bind closed fun _ => Program.moves_pure closed _

/-! ## Going on -/

section Routes

variable {job : Job} (serves : bounds.Serves job.id) (covers : bounds.Covers job.id)

theorem transition_moves {step : String} (advances : bounds.event (.jobAdvanced job.id step)) :
    Program.Moves related
      (Handler.executeAll outside (Steps.stepTransitionEffects job step)) := by
  refine course.executeAll_moves fun effect member => ?_
  rw [List.mem_singleton.mp member]
  exact advances

include serves

theorem finishJob_moves (within : (Route.complete "done").Within bounds job) :
    Program.Moves related (Handler.finishJob outside job) := by
  have closed := course.toClosed
  unfold Handler.finishJob
  refine (course.transition_moves within.1).bind closed fun _ => ?_
  exact (course.completeJob_moves serves within.2).bind closed fun _ => Program.moves_pure closed _

omit course in
theorem failureTransition_within {target : String}
    (advances : bounds.event (.jobAdvanced job.id target)) (error : String) :
    ∀ effect ∈ Steps.failureTransitionEffects job target error, effect.Within bounds := by
  intro effect member
  unfold Steps.failureTransitionEffects at member
  simp only [List.mem_cons, List.not_mem_nil, or_false] at member
  rcases member with rfl | rfl
  · exact serves.failed _ _
  · exact advances

omit serves

variable (finds : Finds bounds related job.id)

include covers finds

theorem routeTo_moves {transition : List Effect}
    (within : ∀ effect ∈ transition, effect.Within bounds) (target : String) :
    Program.Moves related (Handler.routeTo outside job transition target) := by
  have closed := course.toClosed
  unfold Handler.routeTo
  refine (course.executeAll_moves within).bind closed fun _ => ?_
  exact (course.startStep_moves covers finds _ _ _).bind closed fun _ => Program.moves_pure closed _

theorem advanceTo_moves {jobDef : Option JobDef} {transition : StepTransition}
    (chosen : (jobDef.bind (·.getStep job.step)).bind (·.onDone) = some transition)
    (within : (job.doneRoute jobDef).Within bounds job) :
    Program.Moves related (Handler.advanceTo outside job jobDef transition.stepName) := by
  have closed := course.toClosed
  unfold Job.doneRoute at within
  rw [chosen] at within
  dsimp only at within
  unfold Handler.advanceTo
  dsimp only
  split
  · rename_i completes
    rw [if_pos completes] at within
    refine (course.transition_moves within.1).bind closed fun _ => ?_
    exact (course.completeJob_moves covers.serves within.2).bind closed fun _ => Program.moves_pure closed _
  · rename_i starts
    rw [if_neg starts] at within
    refine (course.transition_moves within).bind closed fun _ => ?_
    exact (course.startStep_moves covers finds _ _ _).bind closed fun _ => Program.moves_pure closed _

theorem advanceJob_moves (runtime : Runtime)
    (ended : job.isTerminal = true → bounds.Completes job)
    (completed : bounds.event (.stepCompleted job.id job.step))
    (within : runtime.RouteWithin outside bounds job job.doneRoute) :
    related runtime (Handler.advanceJob outside job runtime).2 := by
  have closed := course.toClosed
  unfold Handler.advanceJob
  split
  · rename_i terminal
    exact course.completeJob_moves covers.serves (ended terminal) runtime
  refine course.withRunbook_moves fun runbook known => ?_
  have edge := within runbook known
  refine (course.leaveStep_moves covers.serves _).bind closed fun _ => ?_
  refine Program.Moves.bind closed (course.execute_moves completed) fun _ => ?_
  split
  · rename_i transition chosen
    exact course.advanceTo_moves covers finds chosen edge
  · rename_i noStep
    unfold Job.doneRoute at edge
    rw [noStep] at edge
    dsimp only at edge
    split
    · rename_i onDone chosen
      rw [chosen] at edge
      dsimp only at edge
      split
      · rename_i other
        rw [if_pos other] at edge
        refine course.routeTo_moves covers finds (fun effect member => ?_) _
        rw [List.mem_singleton.mp member]
        exact edge
      · rename_i same
        rw [if_neg same] at edge
        exact course.finishJob_moves covers.serves edge
    · rename_i noJob
      rw [noJob] at edge
      dsimp only at edge
      split
      · rename_i cancelling
        rw [if_pos cancelling] at edge
        exact course.terminateCancelled_moves covers.serves edge
      · rename_i going
        rw [if_neg going] at edge
        exact course.finishJob_moves covers.serves edge

theorem failJob_moves (runtime : Runtime) (error : String)
    (within : runtime.RouteWithin outside bounds job job.failRoute) :
    related runtime (Handler.failJob outside job error runtime).2 := by
  have closed := course.toClosed
  unfold Handler.failJob
  refine course.withRunbook_moves fun runbook known => ?_
  have edge := within runbook known
  unfold Job.failRoute at edge
  refine (course.leaveStep_moves covers.serves _).bind closed fun _ => ?_
  split
  · rename_i onFail chosen
    rw [chosen] at edge
    exact course.routeTo_moves covers finds (failureTransition_within covers.serves edge _) _
  · rename_i noStep
    rw [noStep] at edge
    dsimp only at edge
    split
    · rename_i onFail chosen
      rw [chosen] at edge
      dsimp only at edge
      split
      · rename_i other
        rw [if_pos other] at edge
        exact course.routeTo_moves covers finds (failureTransition_within covers.serves edge _) _
      · rename_i same
        rw [if_neg same] at edge
        exact course.terminateFailed_moves covers.serves edge error
    · rename_i noJob
      rw [noJob] at edge
      refine (course.terminateFailed_moves covers.serves edge error).bind closed fun _ => ?_
      split
      · exact (course.emitNotify_moves _ _).bind closed fun _ => Program.moves_pure closed _
      · exact Program.moves_pure closed _

theorem cancelTo_moves {target : String} (cancelling : bounds.event (.jobCancelling job.id))
    (advances : bounds.event (.jobAdvanced job.id target)) :
    Program.Moves related (Handler.cancelTo outside job target) := by
  have closed := course.toClosed
  unfold Handler.cancelTo
  refine Program.Moves.bind closed (course.execute_moves cancelling) fun _ => ?_
  refine Program.Moves.bind closed (course.routeTo_moves covers finds ?_ target) fun _ =>
    Program.moves_pure closed _
  exact failureTransition_within covers.serves advances "cancelled"

theorem cancelJob_moves (runtime : Runtime) (cancels : bounds.event (.jobCancelling job.id))
    (within : runtime.RouteWithin outside bounds job job.cancelRoute) :
    related runtime (Handler.cancelJob outside job runtime).2 := by
  have closed := course.toClosed
  unfold Handler.cancelJob
  split
  · exact course.refl runtime
  refine course.withRunbook_moves fun runbook known => ?_
  have edge := within runbook known
  unfold Job.cancelRoute at edge
  refine (course.leaveStep_moves covers.serves _).bind closed fun _ => ?_
  split
  · rename_i onCancel chosen
    rw [chosen] at edge
    exact course.cancelTo_moves covers finds cancels edge
  · rename_i noStep
    rw [noStep] at edge
    dsimp only at edge
    split
    · rename_i onCancel chosen
      rw [chosen] at edge
      dsimp only at edge
      split
      · rename_i other
        rw [if_pos other] at edge
        exact course.cancelTo_moves covers finds cancels edge
      · rename_i same
        rw [if_neg same] at edge
        exact course.terminateCancelled_moves covers.serves edge
    · rename_i noJob
      rw [noJob] at edge
      exact course.terminateCancelled_moves covers.serves edge

end Routes

/-! ## Beginning -/

theorem notifyStart_moves (params : CreateJobParams) (prepared : Handler.PreparedJob) :
    Program.Moves related (Handler.notifyStart outside params prepared) := by
  unfold Handler.notifyStart
  split
  · exact Program.moves_pure course.toClosed _
  · refine Program.Moves.bind course.toClosed (course.execute_moves ?_) fun _ =>
      Program.moves_pure course.toClosed _
    trivial

theorem launchJob_moves {params : CreateJobParams} {prepared : Handler.PreparedJob}
    (covers : bounds.Covers params.jobId) (finds : ∀ id, bounds.Covers id → Finds bounds related id)
    (routes : ∀ job : Job, bounds.Covers job.id → ∀ runtime : Runtime,
      runtime.RouteWithin outside bounds job job.failRoute)
    (within : ∀ effect ∈ prepared.effects, effect.Within bounds) :
    Program.Moves related (Handler.launchJob outside params prepared) := by
  have closed := course.toClosed
  unfold Handler.launchJob
  refine Program.Moves.bind closed ?_ fun workspace => ?_
  · refine Handler.carryOut_moves fun runtime => Program.Moves.attempt ?_
    exact course.executorAll_moves runtime within
  cases workspace with
  | error error =>
      refine Program.Moves.bindOf closed (course.requireJob_moves _) fun before job after found => ?_
      obtain ⟨rfl, present⟩ := Handler.requireJob_eq_ok.mp found
      rcases finds _ covers before job present with owned | anything
      · exact course.failJob_moves owned (finds job.id owned) before _ (routes job owned before)
      · exact anything _
  | ok events =>
      dsimp only
      split
      · exact Program.moves_pure closed _
      · refine (course.startStep_moves covers (finds _ covers) _ _ _).bind closed fun _ => ?_
        exact Program.moves_pure closed _

end Course

end OddJobs
