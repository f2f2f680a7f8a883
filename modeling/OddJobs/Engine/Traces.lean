import OddJobs.Engine.JobMoves

/-!
# What routines apply

Most properties of a routine depend only on the events it applies and on what these
make of the state.  Such a property needs to be checked for the events alone; what else
a routine does is aside.
-/

namespace OddJobs

open Library

/-- The state, with the events that were applied to it. -/
structure Trace where
  state : MaterializedState
  applied : List Event

def Runtime.trace (runtime : Runtime) : Trace := ⟨runtime.world.state, runtime.world.applied⟩

def Trace.apply (order : WalkOrder) (clock : Clock) (event : Event) (trace : Trace) : Trace :=
  ⟨trace.state.applyEvent order clock event, trace.applied ++ [event]⟩

/-- A relation of runtimes that looks only at their traces. -/
def Traced (related : Trace → Trace → Prop) (before after : Runtime) : Prop :=
  related before.trace after.trace

/-- A relation along which the permitted events lead. -/
structure Tracing (order : WalkOrder) (permits : Event → Prop) (related : Trace → Trace → Prop) :
    Prop extends Closed related where
  event : ∀ {event : Event}, permits event → ∀ clock trace, related trace (trace.apply order clock event)
  cleaning : ∀ (id : WorkspaceId) (trace : Trace),
    related trace { trace with state := trace.state.updateWorkspace id .cleaning }

def Event.Settles (terminalStep : String) : Event → Prop
  | queueCompleted _ _ _ => terminalStep = "done"
  | queueFailed _ _ _ _ | queueItemDead _ _ _ => terminalStep ≠ "done"
  | _ => False

/-- The bounds of the permitted events.  A job may end where what happens to its item is
permitted. -/
def Bounds.permitting (permits : Event → Prop) : Bounds where
  event := permits
  timer := fun _ => True
  ends := fun _ step => ∀ event : Event, event.Settles step → permits event

/-- What holds of the state stays, and all that is applied on the way is permitted. -/
def Extends (permits : Event → Prop) (holds : MaterializedState → Prop) (before after : Trace) :
    Prop :=
  holds before.state → holds after.state ∧
    ∃ events, after.applied = before.applied ++ events ∧ ∀ event ∈ events, permits event

/-- It is enough that every permitted event keeps what holds. -/
theorem tracing_extends {order : WalkOrder} {permits : Event → Prop}
    {holds : MaterializedState → Prop}
    (applies : ∀ {event : Event}, permits event → ∀ clock state, holds state →
      holds (state.applyEvent order clock event))
    (cleans : ∀ id state, holds state → holds (state.updateWorkspace id .cleaning)) :
    Tracing order permits (Extends permits holds) where
  refl := fun trace held => ⟨held, [], (List.append_nil trace.applied).symm, nofun⟩
  trans := by
    intro first second third early late held
    obtain ⟨between, events, applied, permitted⟩ := early held
    obtain ⟨after, others, later, permitted'⟩ := late between
    refine ⟨after, events ++ others, ?_, List.forall_mem_append.mpr ⟨permitted, permitted'⟩⟩
    rw [later, applied, List.append_assoc]
  event := by
    intro event permitted clock trace held
    exact ⟨applies permitted clock trace.state held, [event], rfl,
      List.forall_mem_singleton.mpr permitted⟩
  cleaning := fun id trace held =>
    ⟨cleans id trace.state held, [], (List.append_nil trace.applied).symm, nofun⟩

/-- Everything is permitted to every job. -/
theorem free_covers (id : JobId) : (Bounds.permitting fun _ => True).Covers id :=
  ⟨fun _ _ _ => trivial, fun _ _ => trivial, trivial, fun _ => trivial, fun _ => trivial,
    fun _ => trivial, trivial, trivial⟩

theorem free_route (job : Job) (route : Route) :
    route.Within (.permitting fun _ => True) job := by
  cases route with
  | start step => trivial
  | complete step => exact ⟨trivial, fun _ => trivial, trivial, fun _ _ => trivial⟩
  | cancel => exact ⟨fun _ => trivial, fun _ _ => trivial⟩
  | fail => exact fun _ _ => trivial

namespace Course

variable {outside : Outside} {bounds : Bounds} {related : Runtime → Runtime → Prop}
variable (course : Course bounds outside related)

include course

theorem pollAgain_moves (workerName : String) (state : WorkerState) (runbookHash : String) :
    Program.Moves related (Handler.pollAgain outside workerName state runbookHash) := by
  have closed := course.toClosed
  unfold Handler.pollAgain
  refine (Program.moves_read closed _).bind closed fun current => ?_
  split
  · split
    · refine (course.cachedRunbook_moves runbookHash).bind closed fun runbook => ?_
      split
      · exact Program.moves_pure closed _
      · refine course.executeAll_moves fun effect member => ?_
        rw [List.mem_singleton.mp member]
        trivial
    · exact (course.readState_moves _).bind closed fun _ => Program.moves_pure closed _
  · exact Program.moves_pure closed _

theorem emit_moves {event : Event} (permitted : bounds.event event) :
    Program.Moves related (Handler.executeAll outside [.emit event]) := by
  refine course.executeAll_moves fun effect member => ?_
  rw [List.mem_singleton.mp member]
  exact permitted

/-- What happens to the item of a job that ends, where that is permitted. -/
theorem settleQueueItem_moves {terminalStep : String}
    (retries : ∀ queueName itemId, bounds.timer (Timer.queueRetry queueName itemId))
    (settling : ∀ event : Event, event.Settles terminalStep → bounds.event event)
    (runbookHash queueName itemId ns : String) :
    Program.Moves related
      (Handler.settleQueueItem outside runbookHash queueName itemId ns terminalStep) := by
  have closed := course.toClosed
  unfold Handler.settleQueueItem
  split
  · rename_i done
    exact course.emit_moves (settling _ done)
  · rename_i failed
    have fails := settling (.queueFailed queueName itemId ("job reached '" ++ terminalStep ++ "'") ns)
      failed
    have dies := settling (.queueItemDead queueName itemId ns) failed
    refine (course.emit_moves fails).bind closed fun failed => ?_
    refine (course.cachedRunbook_moves runbookHash).bind closed fun runbook => ?_
    refine Program.Moves.bind closed ?_ fun settled => Program.moves_pure closed _
    unfold Handler.retryOrDead
    refine (course.readState_moves _).bind closed fun item => ?_
    dsimp only
    split
    · refine Program.Moves.bind closed (course.execute_moves ?_) fun _ =>
        Program.moves_pure closed _
      exact retries _ itemId
    · exact course.emit_moves dies

end Course

/-- A course that sees neither the workers nor the runbooks in memory.  A job may end
where what happens to its item is permitted. -/
structure Blind (bounds : Bounds) (outside : Outside) (related : Runtime → Runtime → Prop) : Prop
    extends Course ⟨bounds.event, bounds.timer, fun _ _ => False⟩ outside related where
  memory : ∀ (runtime : Runtime) (workerStates : HashMap WorkerState)
    (runbookCache : HashMap Runbook), related runtime { runtime with workerStates, runbookCache }
  retries : ∀ queueName itemId, bounds.timer (Timer.queueRetry queueName itemId)
  settling : ∀ id step, bounds.ends id step → ∀ event : Event, event.Settles step → bounds.event event

namespace Blind

variable {outside : Outside} {bounds : Bounds} {related : Runtime → Runtime → Prop}
variable (blind : Blind bounds outside related)

include blind

theorem refreshWorkerRunbook_moves (workerName : String) :
    Program.Moves related (Handler.refreshWorkerRunbook outside workerName) := by
  have closed := blind.toClosed
  unfold Handler.refreshWorkerRunbook
  refine (Program.moves_read closed _).bind closed fun state => ?_
  cases state with
  | none => exact Program.moves_pure closed _
  | some state =>
      refine blind.nextReading_moves.bind closed fun reading => ?_
      cases reading.runbook with
      | error error => exact Program.moves_throw closed _
      | ok found =>
          cases found with
          | none => exact Program.moves_throw closed _
          | some runbook =>
              dsimp only
              split
              · exact Program.moves_pure closed _
              · refine Program.Moves.bind closed (fun runtime => blind.memory runtime _ _)
                  fun _ => ?_
                refine Program.Moves.bind closed (fun runtime => blind.memory runtime _ _)
                  fun _ => ?_
                exact Program.moves_pure closed _

variable {terminalStep : String}
variable (settling : ∀ event : Event, event.Settles terminalStep → bounds.event event)

include settling

theorem checkWorkerJobComplete_moves (jobId : JobId) :
    Program.Moves related (Handler.checkWorkerJobComplete outside jobId terminalStep) := by
  have closed := blind.toClosed
  unfold Handler.checkWorkerJobComplete
  refine (Program.moves_read closed _).bind closed fun owner => ?_
  cases owner with
  | none => exact Program.moves_pure closed _
  | some entry =>
      obtain ⟨workerName, state⟩ := entry
      refine Program.Moves.bind closed (fun runtime => blind.memory runtime _ _) fun _ => ?_
      refine (blind.refreshWorkerRunbook_moves workerName).bind closed fun loaded => ?_
      refine (Program.moves_read closed _).bind closed fun current => ?_
      dsimp only
      split
      · refine (blind.settleQueueItem_moves blind.retries settling _ _ _ _).bind closed fun settled => ?_
        exact (blind.pollAgain_moves workerName state _).bind closed fun _ =>
          Program.moves_pure closed _
      · refine (Program.moves_pure closed _).bind closed fun settled => ?_
        exact (blind.pollAgain_moves workerName state _).bind closed fun _ =>
          Program.moves_pure closed _

omit settling

theorem course : Course bounds outside related where
  toClosed := blind.toClosed
  aside := blind.aside
  event := blind.event
  cleaning := blind.cleaning
  timers := blind.timers
  settles := fun id step ends =>
    blind.checkWorkerJobComplete_moves (blind.settling id step ends) id

end Blind

namespace Tracing

variable {outside : Outside} {permits : Event → Prop} {related : Trace → Trace → Prop}
variable (tracing : Tracing outside.order permits related)

include tracing

theorem closed : Closed (Traced related) where
  refl := fun _ => tracing.refl _
  trans := fun first second => tracing.trans first second

/-- What changes no trace is not seen. -/
theorem blind : Blind (.permitting permits) outside (Traced related) where
  toClosed := tracing.closed
  aside := by
    intro before after aside
    unfold Traced Runtime.trace
    rw [aside.state, aside.applied]
    exact tracing.refl _
  event := fun permitted runtime => tracing.event permitted (runtime.world.clocks 0) runtime.trace
  cleaning := fun id runtime => tracing.cleaning id runtime.trace
  timers := fun runtime _ _ => tracing.refl runtime.trace
  settles := fun _ _ never => never.elim
  memory := fun runtime _ _ => tracing.refl runtime.trace
  retries := fun _ _ => trivial
  settling := fun _ _ ends => ends

theorem course : Course (.permitting permits) outside (Traced related) :=
  tracing.blind.course

end Tracing

end OddJobs
