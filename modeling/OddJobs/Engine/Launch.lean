import OddJobs.Engine.Account
import OddJobs.Engine.Runs
import OddJobs.Storage.Frames

/-!
# Launching a job

How far the launch of a new job comes: its workspace is set up, its first step is
started, or, when the workspace fails, the step that handles failures.
-/

namespace OddJobs

open Library

/-- Where a launch stands: what the job looks like, which replies are used up, and
which runbooks are known, as at the start. -/
structure Launching (outside : Outside) (id : JobId) (start : Runtime) (used : Nat)
    (view : JobView) (now : Runtime) : Prop where
  job : (now.world.state.jobs[id]?).map Job.view = some view
  runbooks : ∀ hash, now.runbookAt outside hash = start.runbookAt outside hash
  replies : ∀ n, now.world.replies n = start.world.replies (n + used)
  readings : now.readings = start.readings
  workers : now.workerStates = start.workerStates

/-- The step can be started: its command, or its agent. -/
def Startable (runbook : Runbook) (stepDef : StepDef) (start : Runtime) (used : Nat) : Prop :=
  match stepDef.run with
  | .shell _ => True
  | .agent agent _ =>
      (runbook.getAgent agent).isSome = true ∧ (∃ plan, (start.readings 0).plan = .ok plan) ∧
        ∃ session, (start.world.replies used).spawned = .ok session
  | .job _ => False

inductive SetsUp (id : JobId) : List Effect → Prop where
  | nothing : SetsUp id []
  | folder (workspaceId : WorkspaceId) (path : PathBuf) : SetsUp id
      [.createWorkspace workspaceId path (some (.job id)) (some "folder") none none none]
  | worktree (workspaceId : WorkspaceId) (path root : PathBuf) (branch : String)
      (ref : Option String) : SetsUp id
      [.createWorkspace workspaceId path (some (.job id)) (some "worktree") (some root)
        (some branch) ref]

def WorkspaceUp (effects : List Effect) (reply : Reply) : Prop :=
  match effects with
  | [.createWorkspace _ _ _ workspaceType _ _ _] =>
      (∃ done, reply.created = .ok done) ∧
        (workspaceType = some "worktree" →
          ∃ output, reply.git = .ok output ∧ output.success = true)
  | _ => True

def OnWorkspace (id : JobId) : Event → Prop
  | .workspaceCreated _ _ _ owner _ => owner = some (.job id)
  | .workspaceReady _ | .workspaceFailed _ _ => True
  | _ => False

def AtStep (id : JobId) (step : String) (now : Runtime) : Prop :=
  (now.world.state.jobs[id]?).map (·.step) = some step

/-- The replies that are used up when a step of a new job is left. -/
def leaving (stepDef : Option StepDef) : Nat := if Handler.isAgentStep stepDef then 2 else 0

/-- The job of a launch has not entered any step yet, and has no session. -/
structure Fresh (view : JobView) : Prop where
  noSession : view.sessionId = none
  noVisits : view.visits = ∅

def failTarget (jobDef : JobDef) (step : String) : Option String :=
  match (jobDef.getStep step).bind (·.onFail) with
  | some onFail => some onFail.stepName
  | none =>
      match jobDef.onFail with
      | some onFail => if step ≠ onFail.stepName then some onFail.stepName else none
      | none => none

namespace Launching

variable {outside : Outside} {id : JobId} {start now : Runtime} {used : Nat} {view : JobView}

theorem getJob (launching : Launching outside id start used view now) :
    ∃ job, now.world.state.getJob id = some job ∧ job.view = view := by
  obtain ⟨job, found, same⟩ := Option.map_eq_some_iff.mp launching.job
  exact ⟨job, MaterializedState.getJob_found found, same⟩

/-- An event of the lifecycle leaves its mark on the job. -/
theorem emitting (launching : Launching outside id start used view now) {event : Event}
    {mark : Mark} (lifecycle : event.Lifecycle id) (marked : event.mark? = some mark) :
    Launching outside id start (used + 1) (view.mark mark)
      (now.emitting outside.order event) where
  job := by
    have moved := MaterializedState.account_applyEvent outside.order (now.world.clocks 0)
      now.world.state lifecycle
    rw [marked, Option.elim_some] at moved
    have job := congrArg Account.job moved
    exact job.trans (congrArg (Option.map fun before : JobView => before.mark mark) launching.job)
  runbooks := by
    intro hash
    have loads : event.loadsRunbook = false := by
      cases event with
      | runbookLoaded => cases marked
      | _ => rfl
    have same := MaterializedState.applyEvent_runbooks outside.order (now.world.clocks 0)
      now.world.state loads
    rw [← launching.runbooks hash]
    refine Runtime.runbookAt_congr outside ?_ ?_ hash
    · rfl
    · exact same
  replies := by
    intro n
    have reply := launching.replies (n + 1)
    rw [Nat.add_assoc, Nat.add_comm 1 used] at reply
    exact reply
  readings := launching.readings
  workers := launching.workers

/-- Effects on timers, and requests that are always taken, leave the job alone. -/
theorem timing (launching : Launching outside id start used view now) (timer : TimerId)
    (duration : Nat) : Launching outside id start (used + 1) view (now.timing timer duration) where
  job := launching.job
  runbooks := launching.runbooks
  replies := by
    intro n
    have reply := launching.replies (n + 1)
    rw [Nat.add_assoc, Nat.add_comm 1 used] at reply
    exact reply
  readings := launching.readings
  workers := launching.workers

/-- What an adapter was asked leaves the job alone. -/
theorem requesting (launching : Launching outside id start used view now) (asked : Request) :
    Launching outside id start (used + 1) view (now.requesting asked) where
  job := launching.job
  runbooks := launching.runbooks
  replies := by
    intro n
    have reply := launching.replies (n + 1)
    rw [Nat.add_assoc, Nat.add_comm 1 used] at reply
    exact reply
  readings := launching.readings
  workers := launching.workers

theorem owners (launching : Launching outside id start used view now)
    (agentOwners : HashMap OwnerId) : Launching outside id start used view
      { now with agentOwners } where
  job := launching.job
  runbooks := launching.runbooks
  replies := launching.replies
  readings := launching.readings
  workers := launching.workers

/-- An agent whose session is spawned. -/
theorem spawned (launching : Launching outside id start used view now) {session : SessionId}
    (replied : (start.world.replies used).spawned = .ok session) (agentId : AgentId)
    (agentName : String) (workspacePath : PathBuf) (input : HashMap String) (command : String)
    (env : List (String × String)) (cwd : Option PathBuf) (sessionConfig : HashMap Value) :
    ∃ event after, Handler.execute outside (.spawnAgent agentId agentName (.job id) workspacePath
        input command env cwd sessionConfig) now = (.ok event, after) ∧
      Launching outside id start (used + 1) (view.mark (.opened session id)) after := by
  have reply : (now.world.replies 0).spawned = .ok session := by
    have same := launching.replies 0
    rw [Nat.zero_add] at same
    rw [same, replied]
  let asking : Runtime := { now with world := { now.world with
    requests := now.world.requests ++ [.spawn (spawnConfig agentId agentName (.job id)
      workspacePath input command env cwd sessionConfig)] } }
  have asked : Launching outside id start used view asking :=
    ⟨launching.job, launching.runbooks, launching.replies, launching.readings, launching.workers⟩
  have lifecycle : (Event.sessionCreated session (.job id)).Lifecycle id := rfl
  refine ⟨some (.sessionCreated session (.job id)),
    asking.emitting outside.order (.sessionCreated session (.job id)), ?_,
    asked.emitting lifecycle rfl⟩
  unfold Handler.execute Handler.carryOut Executor.execute
  rw [Program.run_bind]
  simp only [Exec.nextReply]
  rw [Executor.executeInner, Program.run_bind]
  simp only [Exec.request, Program.run_modify, reply]
  rfl

/-- An agent whose session is not spawned. -/
theorem not_spawned (launching : Launching outside id start used view now) {error : String}
    (replied : (start.world.replies used).spawned = .error error) (agentId : AgentId)
    (agentName : String) (workspacePath : PathBuf) (input : HashMap String) (command : String)
    (env : List (String × String)) (cwd : Option PathBuf) (sessionConfig : HashMap Value) :
    ∃ error after, Handler.execute outside (.spawnAgent agentId agentName (.job id) workspacePath
        input command env cwd sessionConfig) now = (.error error, after) := by
  have reply : (now.world.replies 0).spawned = .error error := by
    have same := launching.replies 0
    rw [Nat.zero_add] at same
    rw [same, replied]
  unfold Handler.execute Handler.carryOut Executor.execute
  rw [Program.run_bind]
  simp only [Exec.nextReply]
  rw [Executor.executeInner, Program.run_bind]
  simp only [Exec.request, Program.run_modify, reply]
  exact ⟨_, _, rfl⟩

theorem cachedRunbook (launching : Launching outside id start used view now) {hash : String}
    {runbook : Runbook} (known : start.runbookAt outside hash = some runbook) :
    ∃ after, Handler.cachedRunbook outside hash now = (.ok runbook, after) ∧
      Launching outside id start used view after := by
  rw [← launching.runbooks] at known
  obtain ⟨runbookCache, ran, aside, _⟩ := Handler.cachedRunbook_known outside known
  refine ⟨{ now with runbookCache }, ran, launching.job, ?_, launching.replies, launching.readings,
    launching.workers⟩
  intro hash
  rw [aside.runbooks, launching.runbooks]

theorem reading (launching : Launching outside id start used view now) :
    now.readings 0 = start.readings 0 := by
  rw [launching.readings]

theorem afterReading (launching : Launching outside id start used view now) :
    Launching outside id start.afterReading used view now.afterReading where
  job := launching.job
  runbooks := launching.runbooks
  replies := launching.replies
  readings := by
    unfold Runtime.afterReading
    dsimp only
    rw [launching.readings]
  workers := launching.workers

/-! ## Starting a step -/

theorem atStep (launching : Launching outside id start used view now) :
    AtStep id view.step now := by
  have step := congrArg (Option.map (·.step)) launching.job
  rw [Option.map_map] at step
  exact step

theorem requireJob (launching : Launching outside id start used view now) :
    ∃ job, Handler.requireJob id now = (.ok job, now) ∧ job.view = view := by
  obtain ⟨job, found, viewed⟩ := launching.getJob
  exact ⟨job, Handler.requireJob_eq_ok.mpr ⟨rfl, found⟩, viewed⟩

theorem require_some {α : Type} (error : RuntimeError) {found : Option α} {value : α}
    (present : found = some value) (now : Runtime) :
    Handler.require error found now = (.ok value, now) := by
  rw [present]
  rfl

theorem spawnAgent_ok (launching : Launching outside id start used view now) {runbook : Runbook}
    (known : start.runbookAt outside view.runbookHash = some runbook) {agentName : String}
    {agentDef : AgentDef} (defined : runbook.getAgent agentName = some agentDef) {plan : SpawnPlan}
    (planned : (start.readings 0).plan = .ok plan) {session : SessionId}
    (replied : (start.world.replies used).spawned = .ok session) :
    Program.Returns (Handler.spawnAgent outside id agentName) now (AtStep id view.step) := by
  obtain ⟨job, found, rfl⟩ := launching.requireJob
  obtain ⟨looked, ran, lookedUp⟩ := launching.cachedRunbook known
  obtain ⟨event, spawned, spawns, created⟩ :=
    (lookedUp.afterReading.owners (looked.afterReading.agentOwners.insert plan.agentId
      (.job id))).spawned replied plan.agentId agentName (executionDir job) plan.input plan.command
      plan.env (some plan.cwd) plan.sessionConfig
  let ready : Runtime := { looked.afterReading with
    agentOwners := looked.afterReading.agentOwners.insert plan.agentId (.job id) }
  let started : Event := .stepStarted id job.step (some plan.agentId) (some agentName)
  let last := (spawned.timing (Timer.liveness id) 30000).emitting outside.order started
  have lifecycle : started.Lifecycle id := rfl
  have stays := ((created.timing (Timer.liveness id) 30000).emitting lifecycle rfl).atStep
  have carriedOut : Handler.executeAll outside [
      .spawnAgent plan.agentId agentName (.job id) (executionDir job) plan.input plan.command
        plan.env (some plan.cwd) plan.sessionConfig,
      .setTimer (Timer.liveness id) 30000, .emit started] ready =
      (.ok (event.toList ++ [started]), last) := by
    rw [Handler.executeAll_cons]
    exact Program.bind_ok spawns
  unfold Handler.spawnAgent
  refine (Program.returns_bind found).mpr ?_
  refine (Program.returns_bind ran).mpr ?_
  refine (Program.returns_bind (require_some _ defined looked)).mpr ?_
  refine (Program.returns_bind rfl).mpr ?_
  rw [lookedUp.reading, planned]
  refine (Program.returns_bind rfl).mpr ?_
  refine (Program.returns_bind carriedOut).mpr ?_
  unfold Handler.buildAgentNotifyEffect
  cases agentDef.notify.onStart with
  | none => exact ⟨_, _, rfl, stays⟩
  | some template => exact ⟨_, _, rfl, stays⟩

theorem spawnAgent_fails (launching : Launching outside id start used view now) {runbook : Runbook}
    (known : start.runbookAt outside view.runbookHash = some runbook) {agentName : String}
    (unable : ¬((runbook.getAgent agentName).isSome = true ∧
      (∃ plan, (start.readings 0).plan = .ok plan) ∧
      ∃ session, (start.world.replies used).spawned = .ok session)) :
    Program.Fails (Handler.spawnAgent outside id agentName) now := by
  obtain ⟨job, found, rfl⟩ := launching.requireJob
  obtain ⟨looked, ran, lookedUp⟩ := launching.cachedRunbook known
  unfold Handler.spawnAgent
  refine (Program.fails_bind found).mpr ?_
  refine (Program.fails_bind ran).mpr ?_
  cases defined : runbook.getAgent agentName with
  | none => exact Program.Fails.first ⟨_, looked, rfl⟩ _
  | some agentDef =>
      refine (Program.fails_bind rfl).mpr ?_
      refine (Program.fails_bind rfl).mpr ?_
      rw [lookedUp.reading]
      cases planned : (start.readings 0).plan with
      | error error => exact ⟨error, _, rfl⟩
      | ok plan =>
          refine (Program.fails_bind rfl).mpr ?_
          cases replied : (start.world.replies used).spawned with
          | ok session =>
              refine absurd ⟨?_, ⟨plan, planned⟩, session, replied⟩ unable
              rw [defined]
              rfl
          | error error =>
              have fails := (lookedUp.afterReading.owners
                (looked.afterReading.agentOwners.insert plan.agentId (.job id))).not_spawned
                replied plan.agentId agentName (executionDir job) plan.input plan.command plan.env
                (some plan.cwd) plan.sessionConfig
              refine Program.Fails.first ?_ _
              rw [Handler.executeAll_cons]
              exact Program.Fails.first fails _

/-- A step is run exactly if it can be started. -/
theorem runStep_ends (launching : Launching outside id start used view now) {runbook : Runbook}
    (known : start.runbookAt outside view.runbookHash = some runbook) (job : Job)
    (stepDef : StepDef) (stepName : String) (input : HashMap String) (workspacePath : PathBuf) :
    let run := Handler.runStep outside job id stepDef stepName input workspacePath
    (Startable runbook stepDef start used → Program.Returns run now (AtStep id view.step)) ∧
      (¬Startable runbook stepDef start used → Program.Fails run now) := by
  unfold Handler.runStep Startable
  cases stepDef.run with
  | shell command =>
      constructor
      · intro _
        exact ⟨_, _, rfl, launching.atStep⟩
      · intro unable
        exact absurd trivial unable
  | agent agent attach =>
      constructor
      · rintro ⟨defined, ⟨plan, planned⟩, session, replied⟩
        obtain ⟨agentDef, found⟩ := Option.isSome_iff_exists.mp defined
        exact launching.spawnAgent_ok known found planned replied
      · exact launching.spawnAgent_fails known
  | job nested =>
      constructor
      · exact False.elim
      · intro _
        exact ⟨_, _, rfl⟩

/-- A step that has not been entered too often is started exactly if it is defined
and can be started. -/
theorem startStep_ends (launching : Launching outside id start used view now) {runbook : Runbook}
    (known : start.runbookAt outside view.runbookHash = some runbook) {jobDef : JobDef}
    (defined : runbook.getJob view.kind = some jobDef) {stepName : String}
    (few : ¬MAX_STEP_VISITS < view.getStepVisits stepName) (input : HashMap String)
    (workspacePath : PathBuf) :
    let starts := ∃ stepDef, jobDef.getStep stepName = some stepDef ∧
      Startable runbook stepDef start (used + 1)
    let program := Handler.startStep outside id stepName input workspacePath
    (starts → Program.Returns program now (AtStep id view.step)) ∧
      (¬starts → Program.Fails program now) := by
  intro starts program
  obtain ⟨job, found, rfl⟩ := launching.requireJob
  obtain ⟨looked, ran, lookedUp⟩ := launching.cachedRunbook known
  have few' : ¬MAX_STEP_VISITS < job.getStepVisits stepName := few
  have lifecycle : (Event.stepStarted id stepName none none).Lifecycle id := rfl
  have started := lookedUp.emitting lifecycle rfl
  constructor
  · rintro ⟨stepDef, present, startable⟩
    have runs := (started.runStep_ends known job stepDef stepName input workspacePath).1 startable
    obtain ⟨events, after, ended, stays⟩ := runs
    change Program.Returns (Handler.startStep outside id stepName input workspacePath) now _
    unfold Handler.startStep
    refine (Program.returns_bind found).mpr ?_
    refine (Program.returns_bind ran).mpr ?_
    refine (Program.returns_bind (require_some _ defined looked)).mpr ?_
    dsimp only
    rw [if_neg few']
    refine (Program.returns_bind (require_some _ present looked)).mpr ?_
    refine (Program.returns_bind (Handler.executeAll_emit outside _ looked)).mpr ?_
    refine (Program.returns_bind ended).mpr ?_
    exact ⟨_, after, rfl, stays⟩
  · intro unable
    change Program.Fails (Handler.startStep outside id stepName input workspacePath) now
    unfold Handler.startStep
    refine (Program.fails_bind found).mpr ?_
    refine (Program.fails_bind ran).mpr ?_
    refine (Program.fails_bind (require_some _ defined looked)).mpr ?_
    dsimp only
    rw [if_neg few']
    cases present : jobDef.getStep stepName with
    | none => exact Program.Fails.first ⟨_, looked, rfl⟩ _
    | some stepDef =>
        refine (Program.fails_bind rfl).mpr ?_
        refine (Program.fails_bind (Handler.executeAll_emit outside _ looked)).mpr ?_
        have notStartable : ¬Startable runbook stepDef start (used + 1) :=
          fun startable => unable ⟨stepDef, present, startable⟩
        exact ((started.runStep_ends known job stepDef stepName input workspacePath).2
          notStartable).first _

/-! ## Failing at the start -/

theorem cancelling (launching : Launching outside id start used view now) (timer : TimerId) :
    ∃ after, Handler.execute outside (.cancelTimer timer) now = (.ok none, after) ∧
      Launching outside id start (used + 1) view after := by
  refine ⟨_, rfl, launching.job, launching.runbooks, ?_, launching.readings, launching.workers⟩
  intro n
  have reply := launching.replies (n + 1)
  rw [Nat.add_assoc, Nat.add_comm 1 used] at reply
  exact reply

theorem leaveStep (launching : Launching outside id start used view now) (job : Job)
    (noSession : job.sessionId = none) (stepDef : Option StepDef) :
    ∃ after, Handler.leaveStep outside job stepDef now = (.ok (), after) ∧
      Launching outside id start (used + leaving stepDef) view after := by
  unfold Handler.leaveStep leaving
  split
  · obtain ⟨first, cancelled, launching⟩ := launching.cancelling (Timer.liveness job.id)
    obtain ⟨second, cancelled', launching⟩ := launching.cancelling (Timer.exitDeferred job.id)
    have left : Handler.leaveAgentStep outside job now = _ :=
      (Program.bind_ok cancelled).trans (Program.bind_ok cancelled')
    rw [left, noSession]
    cases job.stepAgentId with
    | none => exact ⟨second, rfl, launching⟩
    | some agentId => exact ⟨_, rfl, launching.owners _⟩
  · exact ⟨now, rfl, launching⟩

/-- What a move to another step makes of a new job that has just failed. -/
theorem advance_failed (fresh : Fresh view) (target error : String) :
    let moved := (view.mark (.failed error)).mark (.advanced target)
    moved.step = target ∧ moved.kind = view.kind ∧ moved.runbookHash = view.runbookHash ∧
      ¬MAX_STEP_VISITS < moved.getStepVisits target := by
  have moves : (view.mark (.failed error)).advanceSkipped target = false := Bool.and_false _
  intro moved
  have advanced : moved = (view.mark (.failed error)).advance target := rfl
  rw [advanced]
  unfold JobView.advance
  rw [moves, if_neg Bool.false_ne_true]
  refine ⟨rfl, rfl, rfl, ?_⟩
  have noVisits : ∀ step, (view.mark (.failed error)).getStepVisits step = 0 := by
    intro step
    change ((view.visits)[step]?).getD 0 = 0
    rw [fresh.noVisits, Table.lookup_empty]
    rfl
  unfold JobView.getStepVisits
  dsimp only
  split
  · have unvisited := noVisits target
    unfold JobView.getStepVisits at unvisited
    rw [unvisited]
    decide
  · rw [Table.lookup_insert, if_pos rfl, Option.getD_some]
    have unvisited := noVisits target
    unfold JobView.getStepVisits at unvisited
    rw [unvisited]
    decide

/-- A new job is moved to another step, and that is started. -/
theorem routeTo_ends (launching : Launching outside id start used view now) (fresh : Fresh view)
    {runbook : Runbook} (known : start.runbookAt outside view.runbookHash = some runbook)
    {jobDef : JobDef} (defined : runbook.getJob view.kind = some jobDef) {job : Job}
    (same : job.id = id) (target error : String) :
    let starts := ∃ stepDef, jobDef.getStep target = some stepDef ∧
      Startable runbook stepDef start (used + 3)
    let program := Handler.routeTo outside job
      (Steps.failureTransitionEffects job target error) target
    (starts → Program.Returns program now (AtStep id target)) ∧
      (¬starts → Program.Fails program now) := by
  subst same
  obtain ⟨step, kind, hash, few⟩ := advance_failed fresh target error
  have failure : (Event.stepFailed job.id job.step error).Lifecycle job.id := rfl
  have advance : (Event.jobAdvanced job.id target).Lifecycle job.id := rfl
  have moved := (launching.emitting failure rfl).emitting advance rfl
  rw [← hash] at known
  rw [← kind] at defined
  have ends := moved.startStep_ends known defined few job.vars (executionDir job)
  rw [step] at ends
  constructor
  · intro starts
    obtain ⟨events, after, ran, stays⟩ := ends.1 starts
    refine (Program.returns_bind rfl).mpr ?_
    refine (Program.returns_bind ran).mpr ?_
    exact ⟨_, after, rfl, stays⟩
  · intro unable
    refine (Program.fails_bind rfl).mpr ?_
    exact (ends.2 unable).first _

/-- A new job that no worker has yet ends. -/
theorem terminateFailed_ends (launching : Launching outside id start used view now)
    {job : Job} (same : job.id = id) (noSession : job.sessionId = none)
    (unowned : Handler.findWorker outside.order id start.workerStates = none) (error : String) :
    ∃ events after, Handler.terminateFailed outside job error now = (.ok events, after) ∧
      ∃ used' view', Launching outside id start used' view' after ∧ view'.step = "failed" := by
  subst same
  obtain ⟨first, cancelled, launching⟩ := launching.cancelling (Timer.liveness job.id)
  obtain ⟨second, cancelled', launching⟩ := launching.cancelling (Timer.exitDeferred job.id)
  have advance : (Event.jobAdvanced job.id "failed").Lifecycle job.id := rfl
  have failure : (Event.stepFailed job.id job.step error).Lifecycle job.id := rfl
  have moved := (launching.emitting advance rfl).emitting failure rfl
  let last := (second.emitting outside.order (.jobAdvanced job.id "failed")).emitting outside.order
    (.stepFailed job.id job.step error)
  have effects : Steps.failureEffects job error = [.cancelTimer (Timer.liveness job.id),
      .cancelTimer (Timer.exitDeferred job.id), .emit (.jobAdvanced job.id "failed"),
      .emit (.stepFailed job.id job.step error)] := by
    unfold Steps.failureEffects Steps.sessionEffects
    rw [noSession]
    rfl
  have carriedOut : Handler.executeAll outside (Steps.failureEffects job error) now =
      (.ok [.jobAdvanced job.id "failed", .stepFailed job.id job.step error], last) := by
    have later : Handler.executeAll outside [.cancelTimer (Timer.exitDeferred job.id),
        .emit (.jobAdvanced job.id "failed"), .emit (.stepFailed job.id job.step error)] first =
        (.ok [.jobAdvanced job.id "failed", .stepFailed job.id job.step error], last) := by
      rw [Handler.executeAll_cons]
      exact Program.bind_ok cancelled'
    rw [effects, Handler.executeAll_cons]
    refine (Program.bind_ok cancelled).trans ?_
    exact Program.bind_ok later
  have settled : Handler.checkWorkerJobComplete outside job.id "failed" last = (.ok [], last) := by
    unfold Handler.checkWorkerJobComplete
    rw [Program.run_bind]
    simp only [Program.run_read]
    rw [moved.workers, unowned]
    rfl
  refine ⟨_, last, (Program.bind_ok carriedOut).trans ((Program.bind_ok settled).trans rfl), _, _,
    moved, ?_⟩
  change (view.advance "failed").step = "failed"
  unfold JobView.advance
  split
  · rename_i skipped
    unfold JobView.advanceSkipped at skipped
    exact eq_of_beq (Bool.and_eq_true_iff.mp skipped).1
  · rfl

/-- A new job fails: it is sent on, if its failure is handled, and ends otherwise. -/
theorem failJob_ends (launching : Launching outside id start used view now) (fresh : Fresh view)
    {runbook : Runbook} (known : start.runbookAt outside view.runbookHash = some runbook)
    {jobDef : JobDef} (defined : runbook.getJob view.kind = some jobDef) {job : Job}
    (viewed : job.view = view) (same : job.id = id)
    (unowned : Handler.findWorker outside.order id start.workerStates = none) (error : String) :
    let program := Handler.failJob outside job error
    match failTarget jobDef view.step with
    | none => Program.Returns program now (AtStep id "failed")
    | some target =>
        let starts := ∃ stepDef, jobDef.getStep target = some stepDef ∧
          Startable runbook stepDef start (used + leaving (jobDef.getStep view.step) + 3)
        (starts → Program.Returns program now (AtStep id target)) ∧
          (¬starts → Program.Fails program now) := by
  have noSession : job.sessionId = none := by
    rw [← fresh.noSession, ← viewed]
    rfl
  have step : job.step = view.step := by
    rw [← viewed]
    rfl
  have hash : job.runbookHash = view.runbookHash := by
    rw [← viewed]
    rfl
  have kind : job.kind = view.kind := by
    rw [← viewed]
    rfl
  obtain ⟨looked, ran, launching⟩ := launching.cachedRunbook known
  obtain ⟨left, leaves, launching⟩ :=
    launching.leaveStep job noSession (jobDef.getStep view.step)
  intro program
  have goesOn : program now =
      (match (jobDef.getStep view.step).bind (·.onFail) with
        | some onFail => Handler.routeTo outside job
            (Steps.failureTransitionEffects job onFail.stepName error) onFail.stepName
        | none =>
            match jobDef.onFail with
            | some onFail =>
                if job.step ≠ onFail.stepName then Handler.routeTo outside job
                  (Steps.failureTransitionEffects job onFail.stepName error) onFail.stepName
                else Handler.terminateFailed outside job error
            | none => do
                let events ← Handler.terminateFailed outside job error
                let notified ← Handler.emitNotify outside job jobDef.notify.onFail
                pure (events ++ notified) : Handler (List Event)) left := by
    change Handler.failJob outside job error now = _
    unfold Handler.failJob
    rw [hash, kind, step]
    refine (Program.bind_ok ran).trans ?_
    dsimp only
    rw [defined, Option.bind_some, Option.bind_some]
    exact Program.bind_ok leaves
  unfold failTarget
  cases onFail : (jobDef.getStep view.step).bind (·.onFail) with
  | some target =>
      have ends := launching.routeTo_ends fresh known defined same target.stepName error
      rw [onFail] at goesOn
      dsimp only
      unfold Program.Returns Program.Fails
      rw [goesOn]
      exact ends
  | none =>
      rw [onFail] at goesOn
      dsimp only
      cases jobOnFail : jobDef.onFail with
      | some target =>
          rw [jobOnFail, step] at goesOn
          dsimp only at goesOn ⊢
          split at goesOn
          · have ends := launching.routeTo_ends fresh known defined same target.stepName error
            rw [if_pos ‹_›]
            dsimp only
            unfold Program.Returns Program.Fails
            rw [goesOn]
            exact ends
          · obtain ⟨events, after, ran, used', view', ended, atFailed⟩ :=
              launching.terminateFailed_ends same noSession unowned error
            rw [if_neg ‹_›]
            refine ⟨events, after, goesOn.trans ran, ?_⟩
            rw [← atFailed]
            exact ended.atStep
      | none =>
          obtain ⟨events, after, ran, used', view', ended, atFailed⟩ :=
            launching.terminateFailed_ends same noSession unowned error
          rw [jobOnFail] at goesOn
          have stays : AtStep id "failed" after := by
            rw [← atFailed]
            exact ended.atStep
          have notifies : Program.Returns (Handler.emitNotify outside job jobDef.notify.onFail)
              after (AtStep id "failed") := by
            unfold Handler.emitNotify
            cases jobDef.notify.onFail with
            | none => exact ⟨[], after, rfl, stays⟩
            | some template => exact ⟨_, _, rfl, stays⟩
          obtain ⟨notified, last, sent, still⟩ := notifies
          refine ⟨events ++ notified, last, goesOn.trans ?_, still⟩
          exact (Program.bind_ok ran).trans ((Program.bind_ok sent).trans rfl)

/-! ## The workspace -/

theorem applying (launching : Launching outside id start used view now) (event : Event)
    (onWorkspace : OnWorkspace id event) :
    Launching outside id start used view (now.applying outside.order event) where
  job := by
    rw [← launching.job]
    cases event with
    | workspaceCreated workspaceId path branch owner workspaceType =>
        have owned : owner = some (.job id) := onWorkspace
        subst owned
        change ((now.world.state.jobs.modify id fun job =>
          { job with workspacePath := some path, workspaceId := some workspaceId })[id]?).map _ = _
        rw [Table.lookup_modify, if_pos rfl, Option.map_map]
        rfl
    | workspaceReady | workspaceFailed => rfl
    | _ => exact onWorkspace.elim
  runbooks := by
    intro hash
    rw [← launching.runbooks hash]
    refine Runtime.runbookAt_congr outside ?_ ?_ hash
    · rfl
    · refine MaterializedState.applyEvent_runbooks outside.order _ now.world.state ?_
      cases event with
      | runbookLoaded => exact onWorkspace.elim
      | _ => rfl
  replies := launching.replies
  readings := launching.readings
  workers := launching.workers

/-- The next reply is used up. -/
theorem replied (launching : Launching outside id start used view now) (requests : List Request) :
    Launching outside id start (used + 1) view { now with world := { now.world with
      replies := fun n => now.world.replies (n + 1)
      requests } } where
  job := launching.job
  runbooks := launching.runbooks
  replies := by
    intro n
    have reply := launching.replies (n + 1)
    rw [Nat.add_assoc, Nat.add_comm 1 used] at reply
    exact reply
  readings := launching.readings
  workers := launching.workers

theorem requests (launching : Launching outside id start used view now) (requests : List Request) :
    Launching outside id start used view { now with world := { now.world with requests } } :=
  ⟨launching.job, launching.runbooks, launching.replies, launching.readings, launching.workers⟩

theorem createFolder_ends (launching : Launching outside id start used view now)
    (workspaceId : WorkspaceId) (path : PathBuf) :
    let effects : List Effect :=
      [.createWorkspace workspaceId path (some (.job id)) (some "folder") none none none]
    ∃ result after, Executor.executeAll outside.order effects now.world = (result, after) ∧
      Launching outside id start (used + 1) view { now with world := after } ∧
      (WorkspaceUp effects (now.world.replies 0) → ∃ events, result = .ok events) ∧
      (¬WorkspaceUp effects (now.world.replies 0) → ∃ error, result = .error error) := by
  intro effects
  have created := (launching.replied now.world.requests).applying
    (.workspaceCreated workspaceId path none (some (.job id)) (some "folder")) rfl
  cases reply : (now.world.replies 0).created with
  | error error =>
      refine ⟨.error (.shell ("failed to create workspace dir: " ++ error)), _, ?_, created, ?_, ?_⟩
      · simp only [effects, Executor.executeAll, Executor.execute, Program.run_bind, Exec.nextReply,
          Executor.executeInner, Executor.createWorkspace, Executor.prepareWorkspace, shellError,
          reply]
        rfl
      · rintro ⟨⟨done, up⟩, _⟩
        rw [reply] at up
        cases up
      · intro _
        exact ⟨_, rfl⟩
  | ok done =>
      have ready := created.applying (.workspaceReady workspaceId) trivial
      refine ⟨.ok [.workspaceReady workspaceId], _, ?_, ready, ?_, ?_⟩
      · simp only [effects, Executor.executeAll, Executor.execute, Program.run_bind, Exec.nextReply,
          Executor.executeInner, Executor.createWorkspace, Executor.prepareWorkspace, shellError,
          reply]
        rfl
      · intro _
        exact ⟨_, rfl⟩
      · intro down
        refine absurd ⟨⟨done, reply⟩, ?_⟩ down
        intro worktree
        exact absurd worktree (by decide)

theorem createWorktree_ends (launching : Launching outside id start used view now)
    (workspaceId : WorkspaceId) (path root : PathBuf) (branch : String) (ref : Option String) :
    let effects : List Effect := [.createWorkspace workspaceId path (some (.job id))
      (some "worktree") (some root) (some branch) ref]
    ∃ result after, Executor.executeAll outside.order effects now.world = (result, after) ∧
      Launching outside id start (used + 1) view { now with world := after } ∧
      (WorkspaceUp effects (now.world.replies 0) → ∃ events, result = .ok events) ∧
      (¬WorkspaceUp effects (now.world.replies 0) → ∃ error, result = .error error) := by
  intro effects
  have created := (launching.replied now.world.requests).applying
    (.workspaceCreated workspaceId path (some branch) (some (.job id)) (some "worktree")) rfl
  have asked := created.requests (now.world.requests ++ [.git ["-C", root, "worktree", "add", "-b",
    branch, path, ref.getD "HEAD"]])
  cases reply : (now.world.replies 0).created with
  | error error =>
      refine ⟨.error (.shell ("failed to create workspace parent dir: " ++ error)), _, ?_, created,
        ?_, ?_⟩
      · simp only [effects, Executor.executeAll, Executor.execute, Program.run_bind, Exec.nextReply,
          Executor.executeInner, Executor.createWorkspace, Executor.prepareWorkspace, shellError,
          reply]
        rfl
      · rintro ⟨⟨done, up⟩, _⟩
        rw [reply] at up
        cases up
      · intro _
        exact ⟨_, rfl⟩
  | ok done =>
      cases git : (now.world.replies 0).git with
      | error error =>
          refine ⟨.error (.shell error), _, ?_, asked, ?_, ?_⟩
          · simp only [effects, Executor.executeAll, Executor.execute, Program.run_bind,
              Exec.nextReply, Executor.executeInner, Executor.createWorkspace,
              Executor.prepareWorkspace, shellError, reply, git]
            rfl
          · rintro ⟨_, worktree⟩
            obtain ⟨output, replied, _⟩ := worktree rfl
            rw [git] at replied
            cases replied
          · intro _
            exact ⟨_, rfl⟩
      | ok output =>
          obtain ⟨success, stderr⟩ := output
          cases success with
          | true =>
              have ready := asked.applying (.workspaceReady workspaceId) trivial
              refine ⟨.ok [.workspaceReady workspaceId], _, ?_, ready, ?_, ?_⟩
              · simp only [effects, Executor.executeAll, Executor.execute, Program.run_bind,
                  Exec.nextReply, Executor.executeInner, Executor.createWorkspace,
                  Executor.prepareWorkspace, shellError, reply, git]
                rfl
              · intro _
                exact ⟨_, rfl⟩
              · intro down
                exact absurd ⟨⟨done, reply⟩, fun _ => ⟨_, git, rfl⟩⟩ down
          | false =>
              have failed := asked.applying (.workspaceFailed workspaceId
                ("git worktree add failed: " ++ String.ofList (Text.trim stderr.toList))) trivial
              refine ⟨.error (.shell ("git worktree add failed: " ++
                String.ofList (Text.trim stderr.toList))), _, ?_, failed, ?_, ?_⟩
              · simp only [effects, Executor.executeAll, Executor.execute, Program.run_bind,
                  Exec.nextReply, Executor.executeInner, Executor.createWorkspace,
                  Executor.prepareWorkspace, shellError, reply, git]
                rfl
              · rintro ⟨_, worktree⟩
                obtain ⟨same, replied, succeeded⟩ := worktree rfl
                rw [git] at replied
                cases replied
                cases succeeded
              · intro _
                exact ⟨_, rfl⟩

/-- The workspace is set up or not, as the adapters reply. -/
theorem setUp_ends (launching : Launching outside id start used view now) {effects : List Effect}
    (setsUp : SetsUp id effects) :
    ∃ result after, Handler.carryOut (Program.attempt (Executor.executeAll outside.order effects))
        now = (.ok result, after) ∧
      Launching outside id start (used + effects.length) view after ∧
      (WorkspaceUp effects (start.world.replies used) → ∃ events, result = .ok events) ∧
      (¬WorkspaceUp effects (start.world.replies used) → ∃ error, result = .error error) := by
  have reply : now.world.replies 0 = start.world.replies used := by
    have same := launching.replies 0
    rwa [Nat.zero_add] at same
  rw [← reply]
  have attempted : ∀ {result after},
      Executor.executeAll outside.order effects now.world = (result, after) →
      Handler.carryOut (Program.attempt (Executor.executeAll outside.order effects)) now =
        (.ok result, { now with world := after }) := by
    intro result after ran
    unfold Handler.carryOut Program.attempt
    rw [ran]
  cases setsUp with
  | nothing =>
      refine ⟨.ok [], now, rfl, launching, ?_, ?_⟩
      · intro _
        exact ⟨[], rfl⟩
      · intro down
        exact absurd trivial down
  | folder workspaceId path =>
      obtain ⟨result, after, ran, ended⟩ := launching.createFolder_ends workspaceId path
      exact ⟨result, _, attempted ran, ended⟩
  | worktree workspaceId path root branch ref =>
      obtain ⟨result, after, ran, ended⟩ :=
        launching.createWorktree_ends workspaceId path root branch ref
      exact ⟨result, _, attempted ran, ended⟩

end Launching

/-! ## The launch -/

def JobEnded (id : JobId) (terminal : Bool) (now : Runtime) : Prop :=
  ∃ job, now.world.state.jobs[id]? = some job ∧ job.isTerminal = terminal

theorem AtStep.ended {id : JobId} {step : String} {now : Runtime}
    (atStep : AtStep id step now) : JobEnded id (isTerminalStep step) now := by
  obtain ⟨job, found, same⟩ := Option.map_eq_some_iff.mp atStep
  refine ⟨job, found, ?_⟩
  rw [← same]
  rfl

def JobDef.initialStep (jobDef : JobDef) : String := (jobDef.firstStep.map (·.name)).getD "init"

/-- The workspace is set up, and the first step, if any, is not a terminal one and
can be started; or the workspace is not set up, and this holds of the step that
handles the failure. -/
def CanLaunch (runbook : Runbook) (jobDef : JobDef) (effects : List Effect) (start : Runtime)
    (used : Nat) : Prop :=
  (WorkspaceUp effects (start.world.replies used) ∧
    ∀ step, jobDef.firstStep = some step → isTerminalStep step.name = false ∧
      Startable runbook step start (used + effects.length + 1)) ∨
  (¬WorkspaceUp effects (start.world.replies used) ∧
    ∃ target stepDef, failTarget jobDef jobDef.initialStep = some target ∧
      isTerminalStep target = false ∧ jobDef.getStep target = some stepDef ∧
      Startable runbook stepDef start (used + effects.length +
        leaving (jobDef.getStep jobDef.initialStep) + 3))

/-- The workspace is set up and the first step, if any, can be started; or the
workspace is not set up, and the step that handles the failure, if any, can be
started. -/
def CanStart (runbook : Runbook) (jobDef : JobDef) (effects : List Effect) (start : Runtime)
    (used : Nat) : Prop :=
  (WorkspaceUp effects (start.world.replies used) ∧
    ∀ step, jobDef.firstStep = some step →
      Startable runbook step start (used + effects.length + 1)) ∨
  (¬WorkspaceUp effects (start.world.replies used) ∧
    ∀ target, failTarget jobDef jobDef.initialStep = some target →
      ∃ stepDef, jobDef.getStep target = some stepDef ∧
        Startable runbook stepDef start (used + effects.length +
          leaving (jobDef.getStep jobDef.initialStep) + 3))

theorem JobDef.getStep_first {jobDef : JobDef} {step : StepDef}
    (first : jobDef.firstStep = some step) : jobDef.getStep step.name = some step := by
  unfold JobDef.firstStep at first
  unfold JobDef.getStep
  cases steps : jobDef.steps with
  | nil =>
      rw [steps] at first
      cases first
  | cons head rest =>
      rw [steps] at first
      cases first
      rw [List.find?_cons_of_pos]
      exact beq_self_eq_true _

namespace Launching

variable {outside : Outside} {start now : Runtime} {used : Nat} {view : JobView}

section Launch

variable {params : CreateJobParams} {prepared : Handler.PreparedJob} {runbook : Runbook}

/-- A new job of which no worker knows, about to be launched. -/
structure Ready (outside : Outside) (params : CreateJobParams) (prepared : Handler.PreparedJob)
    (runbook : Runbook) (start : Runtime) (used : Nat) (view : JobView) (now : Runtime) : Prop where
  launching : Launching outside params.jobId start used view now
  fresh : Fresh view
  known : start.runbookAt outside view.runbookHash = some runbook
  defined : runbook.getJob view.kind = some prepared.jobDef
  begins : view.step = prepared.jobDef.initialStep
  named : view.id = params.jobId
  setsUp : SetsUp params.jobId prepared.effects
  unowned : Handler.findWorker outside.order params.jobId start.workerStates = none

/-- The workspace is set up, and the first step is started. -/
theorem launchJob_up (ready : Ready outside params prepared runbook start used view now)
    (up : WorkspaceUp prepared.effects (start.world.replies used)) :
    let startable := ∀ step, prepared.jobDef.firstStep = some step →
      Startable runbook step start (used + prepared.effects.length + 1)
    let program := Handler.launchJob outside params prepared
    (startable → Program.Returns program now (AtStep params.jobId view.step)) ∧
      (¬startable → Program.Fails program now) := by
  obtain ⟨result, after, ran, launching, succeeds, _⟩ := ready.launching.setUp_ends ready.setsUp
  obtain ⟨events, rfl⟩ := succeeds up
  intro startable program
  have goesOn : program now = _ := Program.bind_ok ran
  dsimp only at goesOn
  cases first : prepared.jobDef.firstStep with
  | none =>
      rw [first] at goesOn
      constructor
      · intro _
        exact ⟨events, after, goesOn, launching.atStep⟩
      · intro unable
        refine absurd ?_ unable
        intro step found
        rw [first] at found
        cases found
  | some step =>
      rw [first] at goesOn
      have unvisited : view.getStepVisits step.name = 0 := by
        unfold JobView.getStepVisits
        rw [ready.fresh.noVisits, Table.lookup_empty]
        rfl
      have few : ¬MAX_STEP_VISITS < view.getStepVisits step.name := by
        rw [unvisited]
        decide
      have ends := launching.startStep_ends ready.known ready.defined few prepared.vars
        prepared.placement.executionPath
      rw [JobDef.getStep_first first] at ends
      constructor
      · intro able
        obtain ⟨started, last, startsUp, stays⟩ := ends.1 ⟨step, rfl, able step first⟩
        refine ⟨events ++ started, last, goesOn.trans ?_, stays⟩
        exact (Program.bind_ok startsUp).trans rfl
      · intro unable
        obtain ⟨error, last, fails⟩ := ends.2 fun ⟨found, same, able⟩ => by
          cases same
          refine unable fun other found => ?_
          rw [first] at found
          cases found
          exact able
        exact ⟨error, last, goesOn.trans (Program.bind_error fails)⟩

/-- The workspace is not set up, and the job fails. -/
theorem launchJob_down (ready : Ready outside params prepared runbook start used view now)
    (down : ¬WorkspaceUp prepared.effects (start.world.replies used)) :
    let program := Handler.launchJob outside params prepared
    match failTarget prepared.jobDef view.step with
    | none => Program.Returns program now (AtStep params.jobId "failed")
    | some target =>
        let starts := ∃ stepDef, prepared.jobDef.getStep target = some stepDef ∧
          Startable runbook stepDef start (used + prepared.effects.length +
            leaving (prepared.jobDef.getStep view.step) + 3)
        (starts → Program.Returns program now (AtStep params.jobId target)) ∧
          (¬starts → Program.Fails program now) := by
  obtain ⟨result, after, ran, launching, _, fails⟩ := ready.launching.setUp_ends ready.setsUp
  obtain ⟨error, rfl⟩ := fails down
  obtain ⟨job, required, viewed⟩ := launching.requireJob
  have same : job.id = params.jobId := by
    rw [← ready.named, ← viewed]
    rfl
  have ends := launching.failJob_ends ready.fresh ready.known ready.defined viewed same
    ready.unowned error.display
  intro program
  have goesOn : program now = Handler.failJob outside job error.display after :=
    (Program.bind_ok ran).trans (Program.bind_ok required)
  unfold Program.Returns Program.Fails at ends ⊢
  rw [goesOn]
  exact ends

/-- A launch returns if the step it comes to can be started. -/
theorem launchJob_returns (ready : Ready outside params prepared runbook start used view now)
    (can : CanStart runbook prepared.jobDef prepared.effects start used) :
    Program.Returns (Handler.launchJob outside params prepared) now fun _ => True := by
  have weaken : ∀ {post : Runtime → Prop},
      Program.Returns (Handler.launchJob outside params prepared) now post →
      Program.Returns (Handler.launchJob outside params prepared) now fun _ => True := by
    rintro post ⟨events, after, ran, _⟩
    exact ⟨events, after, ran, trivial⟩
  rcases can with ⟨up, able⟩ | ⟨down, able⟩
  · exact weaken ((launchJob_up ready up).1 able)
  · have ends := launchJob_down ready down
    rw [ready.begins] at ends
    cases target : failTarget prepared.jobDef prepared.jobDef.initialStep with
    | none =>
        rw [target] at ends
        exact weaken ends
    | some step =>
        rw [target] at ends
        exact weaken (ends.1 (able step target))

/-- A launch that can succeed leaves a job that is at work; any other fails, or leaves
a job that has ended. -/
theorem launchJob_ends (ready : Ready outside params prepared runbook start used view now) :
    let can := CanLaunch runbook prepared.jobDef prepared.effects start used
    let program := Handler.launchJob outside params prepared
    (can → Program.Returns program now (JobEnded params.jobId false)) ∧
      (¬can → Program.Fails program now ∨ Program.Returns program now (JobEnded params.jobId true)) := by
  intro can program
  have weaken : ∀ {step : String} {terminal : Bool}, isTerminalStep step = terminal →
      Program.Returns program now (AtStep params.jobId step) →
      Program.Returns program now (JobEnded params.jobId terminal) := by
    rintro step _ rfl ⟨events, after, ran, stays⟩
    exact ⟨events, after, ran, stays.ended⟩
  rcases Classical.em (WorkspaceUp prepared.effects (start.world.replies used)) with up | down
  · have ends := launchJob_up ready up
    rw [ready.begins] at ends
    cases first : prepared.jobDef.firstStep with
    | none =>
        have started := ends.1 fun step found => by
          rw [first] at found
          cases found
        have begins : isTerminalStep prepared.jobDef.initialStep = false := by
          unfold JobDef.initialStep
          rw [first]
          decide
        constructor
        · intro _
          exact weaken begins started
        · intro unable
          refine absurd (.inl ⟨up, ?_⟩) unable
          intro step found
          rw [first] at found
          cases found
    | some step =>
        have begins : prepared.jobDef.initialStep = step.name := by
          unfold JobDef.initialStep
          rw [first]
          rfl
        have only : ∀ other, prepared.jobDef.firstStep = some other → other = step := by
          intro other found
          rw [first] at found
          cases found
          rfl
        rw [begins] at ends
        constructor
        · rintro (⟨_, able⟩ | ⟨down, _⟩)
          · exact weaken (able step first).1 (ends.1 fun other found => (able other found).2)
          · exact absurd up down
        · intro unable
          rcases Classical.em (Startable runbook step start (used + prepared.effects.length + 1))
            with able | stuck
          · have started := ends.1 fun other found => only other found ▸ able
            cases terminal : isTerminalStep step.name with
            | true => exact .inr (weaken terminal started)
            | false =>
                refine absurd (.inl ⟨up, ?_⟩) unable
                intro other found
                rw [only other found]
                exact ⟨terminal, able⟩
          · exact .inl (ends.2 fun able => stuck (able step first))
  · have ends := launchJob_down ready down
    rw [ready.begins] at ends
    cases target : failTarget prepared.jobDef prepared.jobDef.initialStep with
    | none =>
        rw [target] at ends
        constructor
        · rintro (⟨up, _⟩ | ⟨_, other, _, found, _⟩)
          · exact absurd up down
          · rw [target] at found
            cases found
        · intro _
          exact .inr (weaken rfl ends)
    | some step =>
        rw [target] at ends
        dsimp only at ends
        constructor
        · rintro (⟨up, _⟩ | ⟨_, other, stepDef, found, live, defined, able⟩)
          · exact absurd up down
          · rw [target] at found
            cases found
            exact weaken live (ends.1 ⟨stepDef, defined, able⟩)
        · intro unable
          rcases Classical.em (∃ stepDef, prepared.jobDef.getStep step = some stepDef ∧
            Startable runbook stepDef start (used + prepared.effects.length +
              leaving (prepared.jobDef.getStep prepared.jobDef.initialStep) + 3)) with able | stuck
          · cases terminal : isTerminalStep step with
            | true => exact .inr (weaken terminal (ends.1 able))
            | false =>
                obtain ⟨stepDef, defined, able⟩ := able
                exact absurd (.inr ⟨down, step, stepDef, target, terminal, defined, able⟩) unable
          · exact .inl (ends.2 stuck)

end Launch

end Launching

end OddJobs
