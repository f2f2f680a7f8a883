import OddJobs.Engine.JobMoves

/-!
# What a lifecycle touches

The lifecycle of a job is made of effects that concern that job, of readings that
change nothing, and of what its worker does when the job ends.  The launch of a job
moves along each relation that holds of these parts.
-/

namespace OddJobs

open Library

variable (ids : JobId → Prop)

def OwnerId.Among : OwnerId → Prop
  | job id => ids id
  | agentRun _ => False

def Event.OfJobs : Event → Prop
  | jobAdvanced id _ | jobCancelling id | stepStarted id _ _ _ | stepCompleted id _
  | stepFailed id _ _ => ids id
  | sessionCreated _ owner => owner.Among ids
  | workspaceCreated _ _ _ owner _ => ∃ id, owner = some (.job id) ∧ ids id
  | sessionDeleted _ | workspaceReady _ | workspaceFailed _ _ | workspaceDeleted _ => True
  | _ => False

def JobTimer (timer : TimerId) : Prop :=
  ∃ id, ids id ∧ (timer = Timer.liveness id ∨ timer = Timer.exitDeferred id)

def Effect.OfJobs : Effect → Prop
  | emit event => event.OfJobs ids
  | spawnAgent _ _ owner _ _ _ _ _ _ => owner.Among ids
  | createWorkspace _ _ owner _ _ _ _ => ∃ id, owner = some (.job id) ∧ ids id
  | setTimer timer _ | cancelTimer timer => JobTimer ids timer
  | killSession _ | deleteWorkspace _ | shell _ _ _ _ _ | notify _ _ => True
  | _ => False

/-- A relation along which the lifecycles of some jobs move. -/
structure Lifecycle (outside : Outside) (related : Runtime → Runtime → Prop) : Prop
    extends Closed related where
  aside : ∀ {before after}, Aside outside before after → related before after
  event : ∀ {event : Event}, event.OfJobs ids → ∀ runtime,
    related runtime (runtime.applying outside.order event)
  cleaning : ∀ (workspaceId : WorkspaceId) (runtime : Runtime), related runtime
    { runtime with world := { runtime.world with
        state := runtime.world.state.updateWorkspace workspaceId .cleaning } }
  timers : ∀ (runtime : Runtime) (timers : HashMap Nat),
    (∀ timer, ¬JobTimer ids timer → timers[timer]? = runtime.world.timers[timer]?) →
    related runtime { runtime with world := { runtime.world with timers } }
  settles : ∀ id, ids id → ∀ step,
    Program.Moves related (Handler.checkWorkerJobComplete outside id step)

def lifecycleBounds : Bounds where
  event := Event.OfJobs ids
  timer := JobTimer ids
  ends := fun id _ => ids id

section Launches

variable {ids} {outside : Outside} {related : Runtime → Runtime → Prop}

theorem Effect.OfJobs.within {effect : Effect} (ofJobs : effect.OfJobs ids) :
    effect.Within (lifecycleBounds ids) := by
  cases effect with
  | emit event => exact ofJobs
  | spawnAgent agentId agentName owner workspacePath input command env cwd sessionConfig =>
      exact fun sessionId => ofJobs
  | createWorkspace => exact ⟨ofJobs, trivial, fun _ => trivial⟩
  | setTimer => exact ofJobs
  | cancelTimer => exact ofJobs
  | takeQueueItem => exact ofJobs.elim
  | _ => trivial

theorem lifecycleBounds_covers {id : JobId} (among : ids id) : (lifecycleBounds ids).Covers id where
  started := fun _ _ _ => among
  failed := fun _ _ => among
  fails := among
  session := fun _ => among
  sessionless := fun _ => trivial
  removed := fun _ => trivial
  liveness := ⟨id, among, .inl rfl⟩
  exitDeferred := ⟨id, among, .inr rfl⟩

/-- One of the jobs may take any edge. -/
theorem lifecycleBounds_route {job : Job} (among : ids job.id) (route : Route) :
    route.Within (lifecycleBounds ids) job := by
  cases route with
  | start step => exact among
  | complete step => exact ⟨among, fun _ => among, among, among⟩
  | cancel => exact ⟨fun _ => among, among⟩
  | fail => exact among

namespace Lifecycle

/-- The job that an id finds is among the jobs; else nothing is promised. -/
def Finds (ids : JobId → Prop) (related : Runtime → Runtime → Prop) (id : JobId) : Prop :=
  ∀ (runtime : Runtime) (job : Job), runtime.world.state.getJob id = some job →
    ids job.id ∨ ∀ after, related runtime after

variable (life : Lifecycle ids outside related)

include life

theorem course : Course (lifecycleBounds ids) outside related where
  toClosed := life.toClosed
  aside := life.aside
  event := life.event
  cleaning := life.cleaning
  timers := life.timers
  settles := fun id step among => life.settles id among step

theorem notifyStart_moves (params : CreateJobParams) (prepared : Handler.PreparedJob) :
    Program.Moves related (Handler.notifyStart outside params prepared) :=
  life.course.notifyStart_moves params prepared

theorem launchJob_moves {params : CreateJobParams} {prepared : Handler.PreparedJob}
    (among : ids params.jobId) (finds : ∀ id, ids id → Finds ids related id)
    (ofJobs : ∀ effect ∈ prepared.effects, effect.OfJobs ids) :
    Program.Moves related (Handler.launchJob outside params prepared) := by
  refine life.course.launchJob_moves (lifecycleBounds_covers among) ?_ ?_ ?_
  · intro id covers runtime job found
    exact (finds id covers.fails runtime job found).imp_left lifecycleBounds_covers
  · intro job covers runtime runbook known
    exact lifecycleBounds_route covers.fails _
  · exact fun effect member => (ofJobs effect member).within

end Lifecycle

end Launches

end OddJobs
