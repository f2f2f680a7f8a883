import OddJobs.Engine.Runs
import OddJobs.Library.Moves

/-!
# Courses within bounds

A routine is made of effects, of readings that change nothing, and of what a worker
does when a job ends.  When its effects keep within bounds, it moves along every
relation along which such effects move.
-/

namespace OddJobs

open Library

/-- The events that may be applied, the timers that may be set, and the ends that may be
told to the workers. -/
structure Bounds where
  event : Event → Prop
  timer : TimerId → Prop
  ends : JobId → String → Prop

def Effect.Within (bounds : Bounds) : Effect → Prop
  | emit event => bounds.event event
  | spawnAgent _ _ owner _ _ _ _ _ _ => ∀ sessionId, bounds.event (.sessionCreated sessionId owner)
  | createWorkspace id path owner workspaceType _ branch _ =>
      bounds.event (.workspaceCreated id path branch owner workspaceType) ∧
        bounds.event (.workspaceReady id) ∧ ∀ reason, bounds.event (.workspaceFailed id reason)
  | deleteWorkspace id => bounds.event (.workspaceDeleted id)
  | setTimer timer _ | cancelTimer timer => bounds.timer timer
  | takeQueueItem _ _ _ _ _ => False
  | _ => True

/-- A relation along which routines within the bounds move. -/
structure Course (bounds : Bounds) (outside : Outside) (related : Runtime → Runtime → Prop) : Prop
    extends Closed related where
  aside : ∀ {before after}, Aside outside before after → related before after
  event : ∀ {event : Event}, bounds.event event → ∀ runtime,
    related runtime (runtime.applying outside.order event)
  cleaning : ∀ (workspaceId : WorkspaceId) (runtime : Runtime), related runtime
    { runtime with world := { runtime.world with
        state := runtime.world.state.updateWorkspace workspaceId .cleaning } }
  timers : ∀ (runtime : Runtime) (timers : HashMap Nat),
    (∀ timer, ¬bounds.timer timer → timers[timer]? = runtime.world.timers[timer]?) →
    related runtime { runtime with world := { runtime.world with timers } }
  settles : ∀ id step, bounds.ends id step →
    Program.Moves related (Handler.checkWorkerJobComplete outside id step)

/-- The executor moves along a relation of runtimes when it does for every surrounding. -/
theorem Handler.carryOut_moves {α : Type} {related : Runtime → Runtime → Prop} {exec : Exec α}
    (moves : ∀ runtime : Runtime, Program.Moves
      (fun before after => related { runtime with world := before }
        { runtime with world := after }) exec) : Program.Moves related (Handler.carryOut exec) := by
  intro runtime
  have moved := moves runtime runtime.world
  unfold Handler.carryOut
  cases ran : exec runtime.world with
  | mk result after =>
      rw [ran] at moved
      cases result with
      | ok value => exact moved
      | error error => exact moved

def onWorlds (related : Runtime → Runtime → Prop) (runtime : Runtime) (before after : World) : Prop :=
  related { runtime with world := before } { runtime with world := after }

namespace Course

variable {bounds : Bounds} {outside : Outside} {related : Runtime → Runtime → Prop}
variable (course : Course bounds outside related) (runtime : Runtime)

include course

/-! ## The executor -/

theorem onWorlds_closed : Closed (onWorlds related runtime) where
  refl := fun _ => course.refl _
  trans := fun first second => course.trans first second

/-- What the adapters are asked, and what they reply, is aside. -/
theorem world_aside {before after : World} (state : after.state = before.state)
    (timers : after.timers = before.timers) (applied : after.applied = before.applied)
    (takes : after.takes = before.takes) : onWorlds related runtime before after := by
  refine course.aside ⟨state, timers, applied, takes, rfl, rfl, ?_, 0, fun _ => rfl⟩
  intro hash
  unfold Runtime.runbookAt
  dsimp only
  rw [state]

theorem nextReply_moves : Program.Moves (onWorlds related runtime) Exec.nextReply :=
  fun _ => course.world_aside runtime rfl rfl rfl rfl

theorem request_moves {asked : Request} (noTake : asked.take? = none) :
    Program.Moves (onWorlds related runtime) (Exec.request asked) := by
  intro world
  refine course.world_aside runtime rfl rfl rfl ?_
  change (world.requests ++ [asked]).filterMap Request.take? = _
  rw [List.filterMap_append, List.filterMap_cons_none noTake, List.filterMap_nil, List.append_nil]
  rfl

theorem apply_moves {event : Event} (within : bounds.event event) :
    Program.Moves (onWorlds related runtime) (Exec.apply outside.order event) :=
  fun world => course.event within { runtime with world }

theorem shellError_moves {α : Type} (describe : String → String)
    (result : Except String α) :
    Program.Moves (onWorlds related runtime) (shellError describe result) := by
  cases result with
  | ok value => exact Program.moves_pure (course.onWorlds_closed runtime) value
  | error error => exact Program.moves_throw (course.onWorlds_closed runtime) _

theorem createWorkspace_moves {workspaceId : WorkspaceId} {path : PathBuf} {owner : Option OwnerId}
    {workspaceType : Option String} {branch : Option String}
    (created : bounds.event (.workspaceCreated workspaceId path branch owner workspaceType))
    (ready : bounds.event (.workspaceReady workspaceId))
    (fails : ∀ reason, bounds.event (.workspaceFailed workspaceId reason))
    (repoRoot : Option PathBuf) (startPoint : Option String) (reply : Reply) :
    Program.Moves (onWorlds related runtime) (Executor.createWorkspace outside.order workspaceId
      path owner workspaceType repoRoot branch startPoint reply) := by
  have closed := course.onWorlds_closed runtime
  have prepares : Program.Moves (onWorlds related runtime) (Executor.prepareWorkspace outside.order
      workspaceId path (workspaceType == some "worktree") repoRoot branch startPoint reply) := by
    unfold Executor.prepareWorkspace
    split
    · refine (course.shellError_moves runtime _ _).bind closed fun _ => ?_
      split
      · exact Program.moves_throw closed _
      · split
        · exact Program.moves_throw closed _
        · refine (course.request_moves runtime rfl).bind closed fun _ => ?_
          refine (course.shellError_moves runtime _ _).bind closed fun _ => ?_
          split
          · exact Program.moves_pure closed _
          · exact (course.apply_moves runtime (fails _)).bind closed
              fun _ => Program.moves_throw closed _
    · exact course.shellError_moves runtime _ _
  unfold Executor.createWorkspace
  refine (course.apply_moves runtime created).bind closed fun _ => ?_
  refine prepares.bind closed fun _ => ?_
  exact (course.apply_moves runtime ready).bind closed fun _ => Program.moves_pure closed _

theorem deleteWorkspace_moves {workspaceId : WorkspaceId}
    (deleted : bounds.event (.workspaceDeleted workspaceId)) (reply : Reply) :
    Program.Moves (onWorlds related runtime)
      (Executor.deleteWorkspace outside.order workspaceId reply) := by
  have closed := course.onWorlds_closed runtime
  unfold Executor.deleteWorkspace
  refine (Program.moves_read closed _).bind closed fun found => ?_
  cases found with
  | none => exact Program.moves_throw closed _
  | some _ =>
      refine Program.Moves.bind closed ?_ fun _ => ?_
      · exact fun world => course.cleaning workspaceId { runtime with world }
      · refine (course.shellError_moves runtime _ _).bind closed fun _ => ?_
        exact (course.apply_moves runtime deleted).bind closed fun _ => Program.moves_pure closed _

/-- An effect within the bounds. -/
theorem executeInner_moves (reply : Reply) {effect : Effect} (within : effect.Within bounds) :
    Program.Moves (onWorlds related runtime)
      (Executor.executeInner outside.order reply effect) := by
  have closed := course.onWorlds_closed runtime
  have asks : ∀ (asked : Request) (event : Option Event), asked.take? = none →
      Program.Moves (onWorlds related runtime)
        (do
          Exec.request asked
          pure event : Exec (Option Event)) := fun asked event noTake =>
    (course.request_moves runtime noTake).bind closed fun _ => Program.moves_pure closed event
  cases effect with
  | emit event =>
      exact (course.apply_moves runtime within).bind closed fun _ => Program.moves_pure closed _
  | spawnAgent agentId agentName owner workspacePath input command env cwd sessionConfig =>
      refine (course.request_moves runtime rfl).bind closed fun _ => ?_
      cases reply.spawned with
      | error error => exact Program.moves_throw closed _
      | ok sessionId =>
          exact (course.apply_moves runtime (within sessionId)).bind closed
            fun _ => Program.moves_pure closed _
  | sendToAgent | killAgent | sendToSession | killSession =>
      refine (course.request_moves runtime rfl).bind closed fun _ => ?_
      cases reply.delivered with
      | error error => exact Program.moves_throw closed _
      | ok value => exact Program.moves_pure closed _
  | createWorkspace workspaceId path owner workspaceType repoRoot branch startPoint =>
      obtain ⟨created, ready, fails⟩ := within
      exact course.createWorkspace_moves runtime created ready fails repoRoot startPoint reply
  | deleteWorkspace workspaceId => exact course.deleteWorkspace_moves runtime within reply
  | setTimer timer duration =>
      refine Program.Moves.bind closed (fun _ => course.world_aside runtime rfl rfl rfl rfl) fun clock => ?_
      refine Program.Moves.bind closed (fun world => ?_) fun _ => Program.moves_pure closed _
      refine course.timers { runtime with world } _ fun other foreign => ?_
      rw [Table.lookup_insert, if_neg]
      rintro rfl
      exact foreign within
  | cancelTimer timer =>
      refine Program.Moves.bind closed (fun world => ?_) fun _ => Program.moves_pure closed _
      refine course.timers { runtime with world } _ fun other foreign => ?_
      rw [Table.lookup_erase, if_neg]
      rintro rfl
      exact foreign within
  | shell owner step command cwd env => exact asks _ none rfl
  | pollQueue workerName listCommand cwd => exact asks _ none rfl
  | takeQueueItem => exact within.elim
  | notify title message => exact asks _ none rfl

theorem executor_moves {effect : Effect} (within : effect.Within bounds) :
    Program.Moves (onWorlds related runtime) (Executor.execute outside.order effect) :=
  (course.nextReply_moves runtime).bind (course.onWorlds_closed runtime) fun reply =>
    course.executeInner_moves runtime reply within

omit runtime

theorem execute_moves {effect : Effect} (within : effect.Within bounds) :
    Program.Moves related (Handler.execute outside effect) :=
  Handler.carryOut_moves fun runtime => course.executor_moves runtime within

theorem executorAll_moves (runtime : Runtime) {effects : List Effect}
    (within : ∀ effect ∈ effects, effect.Within bounds) :
    Program.Moves (onWorlds related runtime) (Executor.executeAll outside.order effects) := by
  have closed := course.onWorlds_closed runtime
  induction effects with
  | nil => exact Program.moves_pure closed _
  | cons effect rest ih =>
      refine (course.executor_moves runtime (within effect List.mem_cons_self)).bind closed fun _ => ?_
      exact (ih fun other member => within other (List.mem_cons_of_mem effect member)).bind closed
        fun _ => Program.moves_pure closed _

theorem executeAll_moves {effects : List Effect}
    (within : ∀ effect ∈ effects, effect.Within bounds) :
    Program.Moves related (Handler.executeAll outside effects) :=
  Handler.carryOut_moves fun runtime => course.executorAll_moves runtime within

end Course

end OddJobs
