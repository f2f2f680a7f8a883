import OddJobs.Engine.Handlers
import OddJobs.Engine.Traces
import OddJobs.Storage.Frames

/-!
# Cancelled jobs

A job that is being cancelled goes on through its cleanup step, and through whatever
steps the job graph puts behind it.  Only one branch of the advance of a job asks
whether the job is being cancelled, and the edge that leads to the cleanup may itself
name `done`, so that where the job ends depends on its edges.
-/

namespace OddJobs

open Library

def Event.isCompletion : Event → Bool
  | queueCompleted _ _ _ => true
  | _ => false

/-- An event after which a cancelled job is still there and has not been completed. -/
def Event.Undone (id : JobId) : Event → Prop
  | jobAdvanced jobId step => jobId = id → step ≠ "done"
  | jobCreated jobId _ _ _ _ _ _ _ _ _ | jobDeleted jobId => jobId ≠ id
  | queueCompleted _ _ _ => False
  | _ => True

def Route.Undone : Route → Prop
  | start step => step ≠ "done"
  | complete _ => False
  | cancel | fail => True

def MaterializedState.Undone (id : JobId) (state : MaterializedState) : Prop :=
  ∀ job, state.jobs[id]? = some job → job.id = id ∧ job.step ≠ "done"

def MaterializedState.Cancelling (id : JobId) (state : MaterializedState) : Prop :=
  ∀ job, state.jobs[id]? = some job → job.cancelling = true

namespace MaterializedState

theorem Undone.prior {id : JobId} {before after : MaterializedState} (undone : before.Undone id)
    (kept : ∀ job, after.jobs[id]? = some job → ∃ prior, before.jobs[id]? = some prior ∧
      job.id = prior.id ∧ (job.step = "done" → prior.step = "done")) : after.Undone id := by
  intro job found
  obtain ⟨prior, present, named, ended⟩ := kept job found
  obtain ⟨own, going⟩ := undone prior present
  exact ⟨named.trans own, fun done => going (ended done)⟩

/-- Only an advance to `done` takes a job there. -/
theorem Undone.applyEvent {id : JobId} {state : MaterializedState}
    (undone : state.Undone id) {event : Event} (spares : event.Undone id)
    (order : WalkOrder) (clock : Clock) :
    (state.applyEvent order clock event).Undone id := by
  refine undone.prior fun job found => ?_
  cases moves : event.movesJob with
  | false =>
      obtain ⟨prior, present, same⟩ :=
        (applyEvent_sameHistory order clock state moves).prior found
      exact ⟨prior, present, same.id, fun done => same.step.symm.trans done⟩
  | true =>
      cases event with
      | jobCreated jobId kind name hash cwd vars initialStep createdAt ns cronName =>
          change (state.jobs.insert jobId _)[id]? = some job at found
          rw [Table.lookup_insert, if_neg spares] at found
          exact ⟨job, found, rfl, fun done => done⟩
      | jobDeleted jobId =>
          change (state.jobs.erase jobId)[id]? = some job at found
          rw [Table.lookup_erase, if_neg spares] at found
          exact ⟨job, found, rfl, fun done => done⟩
      | jobAdvanced jobId step =>
          change (state.applyJobAdvanced clock jobId step).jobs[id]? = some job at found
          rw [lookup_applyJobAdvanced] at found
          split at found
          · rename_i own
            obtain ⟨prior, present, rfl⟩ := Option.map_eq_some_iff.mp found
            refine ⟨prior, present, ?_⟩
            split
            · exact ⟨rfl, fun done => done⟩
            · rw [Job.applyAdvanced_eq]
              exact ⟨rfl, fun done => absurd done (spares own)⟩
          · exact ⟨job, found, rfl, fun done => done⟩
      | _ => cases moves

theorem Undone.cleaning {id : JobId} {state : MaterializedState} (undone : state.Undone id)
    (workspaceId : WorkspaceId) : (state.updateWorkspace workspaceId .cleaning).Undone id :=
  undone

end MaterializedState

/-- What leaves the cancelled job undone. -/
theorem tracing_undone (order : WalkOrder) (id : JobId) :
    Tracing order (Event.Undone id) (Extends (Event.Undone id) (·.Undone id)) :=
  tracing_extends (fun spares clock _ undone => undone.applyEvent spares order clock)
    fun workspaceId _ undone => undone.cleaning workspaceId

/-- Every job may fail, and be at work, and so may the cancelled one. -/
theorem undone_covers (id other : JobId) : (Bounds.permitting (Event.Undone id)).Covers other where
  started := fun _ _ _ => trivial
  failed := fun _ _ => trivial
  fails := fun _ => by decide
  session := fun _ => trivial
  sessionless := fun _ => trivial
  removed := fun _ => trivial
  liveness := trivial
  exitDeferred := trivial

theorem undone_ends (id other : JobId) {step : String} (undone : step ≠ "done") :
    (Bounds.permitting (Event.Undone id)).ends other step := by
  intro event settles
  cases event with
  | queueCompleted queueName itemId ns => exact absurd settles undone
  | queueFailed | queueItemDead => trivial
  | _ => exact settles.elim

theorem Route.Undone.within {id : JobId} {route : Route} (undone : route.Undone) (job : Job) :
    route.Within (.permitting (Event.Undone id)) job := by
  cases route with
  | start step => exact fun _ => undone
  | complete step => exact undone.elim
  | cancel => exact ⟨fun _ _ => by decide, undone_ends id job.id (by decide)⟩
  | fail => exact undone_ends id job.id (by decide)

/-! ## Runs -/

/-- The engine, what is on its way from the log, and the completions of queue items
that were reported when the job moved. -/
structure CancelledRun where
  runtime : Runtime
  log : List Event
  reports : List Event

/-- The job's step is done or has failed; it is cancelled once more; its advance is read
from the log; a worker that starts finds it ended; or something else happens. -/
inductive CancelledMove where
  | advance
  | fail (error : String)
  | cancel
  | read (step : String)
  | reconcile
  | around (after : Runtime) (sent : List Event)

namespace CancelledRun

variable (outside : Outside) (others : OtherHandlers) (id : JobId)

def onJob (routine : Job → Handler (List Event)) : Handler (List Event) := do
  let job ← Handler.readState (·.jobs[id]?)
  match job with
  | none => pure []
  | some job => routine job

def follow (run : CancelledRun) (after : Runtime) : CancelledRun :=
  let applied := after.world.applied.drop run.runtime.world.applied.length
  { runtime := after
    log := run.log ++ applied
    reports := run.reports ++ applied.filter Event.isCompletion }

def next (run : CancelledRun) : CancelledMove → CancelledRun
  | .advance => run.follow (onJob id (Handler.advanceJob outside) run.runtime).2
  | .fail error =>
      run.follow (onJob id (fun job => Handler.failJob outside job error) run.runtime).2
  | .cancel => run.follow (onJob id (Handler.cancelJob outside) run.runtime).2
  | .read step =>
      run.follow (Handler.processEvent outside others (.jobAdvanced id step) run.runtime).2
  | .reconcile =>
      run.follow (onJob id (fun job =>
        Handler.checkWorkerJobComplete outside job.id job.step) run.runtime).2
  | .around after sent => { run with runtime := after, log := run.log ++ sent }

/-- What else may happen does not complete the job. -/
structure Around (run : CancelledRun) (after : Runtime) (sent : List Event) : Prop where
  job : ∀ job, after.world.state.jobs[id]? = some job →
    ∃ prior, run.runtime.world.state.jobs[id]? = some prior ∧ job.id = prior.id ∧
      (job.step = "done" → prior.step = "done")
  sent : .jobAdvanced id "done" ∉ sent

def Concerns (run : CancelledRun) : CancelledMove → Prop
  | .read step => .jobAdvanced id step ∈ run.log
  | .reconcile => ∀ job, run.runtime.world.state.jobs[id]? = some job → job.isTerminal = true
  | .around after sent => run.Around id after sent
  | _ => True

/-- The job, when it moves on, takes no edge to `done`. -/
def Spares (run : CancelledRun) : CancelledMove → Prop
  | .advance => ∀ job, run.runtime.world.state.jobs[id]? = some job → job.isTerminal = false ∧
      ∀ runbook, run.runtime.runbookAt outside job.runbookHash = some runbook →
        (job.doneRoute (runbook.getJob job.kind)).Undone
  | .fail _ => ∀ job, run.runtime.world.state.jobs[id]? = some job →
      ∀ runbook, run.runtime.runbookAt outside job.runbookHash = some runbook →
        (job.failRoute (runbook.getJob job.kind)).Undone
  | .cancel => ∀ job, run.runtime.world.state.jobs[id]? = some job →
      job.isTerminal = false → job.cancelling = false →
      ∀ runbook, run.runtime.runbookAt outside job.runbookHash = some runbook →
        (job.cancelRoute (runbook.getJob job.kind)).Undone
  | _ => True

/-- A run goes on from where the job is being cancelled, or begins with the call that
cancels it. -/
inductive Reaches (condition : CancelledRun → CancelledMove → Prop) : CancelledRun → Prop where
  | start {run : CancelledRun} (cancelling : run.runtime.world.state.Cancelling id)
      (undone : run.runtime.world.state.Undone id) (sent : .jobAdvanced id "done" ∉ run.log)
      (unreported : run.reports = []) : Reaches condition run
  | cancel {run : CancelledRun}
      (going : ∀ job, run.runtime.world.state.jobs[id]? = some job →
        job.id = id ∧ job.isTerminal = false)
      (sent : .jobAdvanced id "done" ∉ run.log) (unreported : run.reports = [])
      (meets : condition run .cancel)
      (cancelling : (run.next outside others id .cancel).runtime.world.state.Cancelling id) :
      Reaches condition (run.next outside others id .cancel)
  | next {run : CancelledRun} {move : CancelledMove} (reaches : Reaches condition run)
      (concerns : run.Concerns id move) (meets : condition run move) :
      Reaches condition (run.next outside others id move)

/-- Where the job has ended it is cancelled or failed, and no item was reported as completed. -/
structure NeverDone (run : CancelledRun) : Prop where
  ends : ∀ job, run.runtime.world.state.jobs[id]? = some job → job.isTerminal = true →
    job.step = "cancelled" ∨ job.step = "failed"
  unreported : run.reports = []

/-- What every move keeps. -/
structure Kept (run : CancelledRun) : Prop where
  undone : run.runtime.world.state.Undone id
  sent : .jobAdvanced id "done" ∉ run.log
  unreported : run.reports = []

theorem Kept.neverDone {id : JobId} {run : CancelledRun} (kept : run.Kept id) :
    run.NeverDone id where
  ends := by
    intro job found terminal
    obtain ⟨_, undone⟩ := kept.undone job found
    have ended : (job.step = "done" ∨ job.step = "failed") ∨ job.step = "cancelled" := by
      simpa [Job.isTerminal, isTerminalStep] using terminal
    rcases ended with (done | failed) | cancelled
    · exact absurd done undone
    · exact .inr failed
    · exact .inl cancelled
  unreported := kept.unreported

variable {outside others id} {run : CancelledRun}

theorem Kept.follow (kept : run.Kept id) {after : Runtime}
    (extended : Traced (Extends (Event.Undone id) (·.Undone id)) run.runtime after) :
    (run.follow after).Kept id := by
  obtain ⟨going, events, applied, undone⟩ := extended kept.undone
  have new : after.world.applied.drop run.runtime.world.applied.length = events := by
    have grown : after.world.applied = run.runtime.world.applied ++ events := applied
    rw [grown, List.drop_left]
  have silent : events.filter Event.isCompletion = [] := by
    refine List.filter_eq_nil_iff.mpr fun event member completes => ?_
    cases event with
    | queueCompleted queueName itemId ns => exact undone _ member
    | _ => cases completes
  refine ⟨going, ?_, ?_⟩
  · change _ ∉ run.log ++ _
    rw [new]
    intro member
    rcases List.mem_append.mp member with old | fresh
    · exact kept.sent old
    · exact undone _ fresh rfl rfl
  · change run.reports ++ _ = []
    rw [new, silent, kept.unreported]
    rfl

/-- A routine on the job. -/
theorem onJob_extends {routine : Job → Handler (List Event)}
    (moves : ∀ job, run.runtime.world.state.jobs[id]? = some job →
      Traced (Extends (Event.Undone id) (·.Undone id)) run.runtime
        (routine job run.runtime).2) :
    Traced (Extends (Event.Undone id) (·.Undone id)) run.runtime
      (onJob id routine run.runtime).2 := by
  cases found : run.runtime.world.state.jobs[id]? with
  | none =>
      have idle : onJob id routine run.runtime = (.ok [], run.runtime) := by
        rw [onJob, Handler.readState, Program.run_bind]
        dsimp only [Program.read]
        rw [found]
        rfl
      rw [idle]
      exact (tracing_undone .byKey id).refl _
  | some job =>
      have works : onJob id routine run.runtime = routine job run.runtime := by
        rw [onJob, Handler.readState, Program.run_bind]
        dsimp only [Program.read]
        rw [found]
      rw [works]
      exact moves job found

theorem course_undone (outside : Outside) (id : JobId) :
    Course (.permitting (Event.Undone id)) outside
      (Traced (Extends (Event.Undone id) (·.Undone id))) :=
  (tracing_undone outside.order id).course

theorem finds_undone (id other : JobId) :
    Course.Finds (.permitting (Event.Undone id))
      (Traced (Extends (Event.Undone id) (·.Undone id))) other :=
  fun _ job _ => .inl (undone_covers id job.id)

theorem Kept.advance (kept : run.Kept id) (spares : run.Spares outside id .advance) :
    (run.next outside others id .advance).Kept id := by
  have course := course_undone outside id
  refine kept.follow (onJob_extends fun job found => ?_)
  obtain ⟨going, undone⟩ := spares job found
  refine course.advanceJob_moves (undone_covers id job.id) (finds_undone id job.id) run.runtime ?_
    trivial fun runbook known => (undone runbook known).within job
  intro terminal
  rw [going] at terminal
  cases terminal

theorem Kept.fail (kept : run.Kept id) {error : String}
    (spares : run.Spares outside id (.fail error)) :
    (run.next outside others id (.fail error)).Kept id := by
  have course := course_undone outside id
  refine kept.follow (onJob_extends fun job found => ?_)
  exact course.failJob_moves (undone_covers id job.id) (finds_undone id job.id) run.runtime error
    fun runbook known => (spares job found runbook known).within job

/-- The call that cancels the job; cancelled once more, it does nothing. -/
theorem Kept.cancel (kept : run.Kept id) (spares : run.Spares outside id .cancel) :
    (run.next outside others id .cancel).Kept id := by
  have course := course_undone outside id
  refine kept.follow (onJob_extends fun job found => ?_)
  cases halted : job.isTerminal || job.cancelling with
  | true =>
      have idle : Handler.cancelJob outside job = pure [] := by rw [Handler.cancelJob, if_pos halted]
      rw [idle]
      exact (tracing_undone .byKey id).refl _
  | false =>
      obtain ⟨going, fresh⟩ := Bool.or_eq_false_iff.mp halted
      exact course.cancelJob_moves (undone_covers id job.id) (finds_undone id job.id) run.runtime
        trivial fun runbook known => (spares job found going fresh runbook known).within job

theorem Kept.read (kept : run.Kept id) {step : String} (concerns : run.Concerns id (.read step)) :
    (run.next outside others id (.read step)).Kept id := by
  have course := course_undone outside id
  have undone : step ≠ "done" := fun done => kept.sent (done ▸ concerns)
  refine kept.follow ?_
  rw [Handler.processEvent_run]
  have spared : (Bounds.permitting (Event.Undone id)).event (.jobAdvanced id step) :=
    fun _ => undone
  refine course.trans (course.event spared run.runtime) ?_
  unfold Handler.handleEvent
  dsimp only
  split
  · exact course.settles id step (undone_ends id id undone) _
  · exact course.refl _

theorem Kept.reconcile (kept : run.Kept id) :
    (run.next outside others id .reconcile).Kept id := by
  have course := course_undone outside id
  refine kept.follow (onJob_extends fun job found => ?_)
  obtain ⟨_, undone⟩ := kept.undone job found
  exact course.settles job.id job.step (undone_ends id job.id undone) _

theorem Kept.next (kept : run.Kept id) {move : CancelledMove} (concerns : run.Concerns id move)
    (spares : run.Spares outside id move) : (run.next outside others id move).Kept id := by
  cases move with
  | advance => exact kept.advance spares
  | fail error => exact kept.fail spares
  | cancel => exact kept.cancel spares
  | read step => exact kept.read concerns
  | reconcile => exact kept.reconcile
  | around after sent =>
      refine ⟨kept.undone.prior concerns.job, ?_, kept.unreported⟩
      intro member
      rcases List.mem_append.mp member with old | fresh
      · exact kept.sent old
      · exact concerns.sent fresh

theorem Reaches.kept (reaches : Reaches outside others id (Spares outside id) run) :
    run.Kept id := by
  induction reaches with
  | start _ undone sent unreported => exact ⟨undone, sent, unreported⟩
  | @cancel run going sent unreported meets _ =>
      have kept : run.Kept id := by
        refine ⟨fun job found => ?_, sent, unreported⟩
        obtain ⟨own, alive⟩ := going job found
        refine ⟨own, fun done => ?_⟩
        rw [Job.isTerminal, done] at alive
        cases alive
      exact kept.cancel meets
  | next _ concerns spares kept => exact kept.next concerns spares

/-- While no edge to `done` is taken, a cancelled job does not end as done. -/
theorem cancelled_job_never_done (outside : Outside) (others : OtherHandlers) (id : JobId)
    {run : CancelledRun} (reaches : Reaches outside others id (Spares outside id) run) :
    run.NeverDone id :=
  reaches.kept.neverDone

/-! ## A job with a cleanup step -/

def cleaning (onDone : Option StepTransition) : Runbook where
  jobs := (∅ : HashMap JobDef).insert "build"
    { kind := "build"
      onDone
      onCancel := some ⟨"cleanup"⟩
      steps := [{ name := "compile", run := .shell "make" },
        { name := "cleanup", run := .shell "make clean" }] }

def compiling : MaterializedState :=
  ({} : MaterializedState).replay (fun _ => .byKey) (fun _ => ⟨0, 0⟩) 0
    [.runbookLoaded "hash" 1 .null,
      .jobCreated "job" "build" "build" "hash" "/" ∅ "compile" 0 "" none,
      .stepStarted "job" "compile" none none]

/-- A job in its first step. -/
def compiled (onDone : Option StepTransition) : CancelledRun where
  runtime := .idle (cleaning onDone) compiling
  log := []
  reports := []

/-- The job is being cancelled and cleans up. -/
def cleanup (onDone : Option StepTransition) : CancelledRun :=
  (compiled onDone).next (.plain (cleaning onDone)) .silent "job" .cancel

theorem compiling_job : ∃ job, compiling.jobs["job"]? = some job ∧ job.id = "job" ∧
    job.isTerminal = false ∧ job.step = "compile" ∧ job.kind = "build" := by
  have compiles : (compiling.jobs["job"]?).map (fun job =>
      (job.id, job.isTerminal, job.step, job.kind)) = some ("job", false, "compile", "build") := by
    decide +kernel
  obtain ⟨job, found, same⟩ := Option.map_eq_some_iff.mp compiles
  obtain ⟨named, rest⟩ := Prod.mk.inj same
  obtain ⟨going, rest⟩ := Prod.mk.inj rest
  obtain ⟨step, kind⟩ := Prod.mk.inj rest
  exact ⟨job, found, named, going, step, kind⟩

theorem reaches_cleanup {condition : CancelledRun → CancelledMove → Prop}
    (onDone : Option StepTransition) (meets : condition (compiled onDone) .cancel)
    (cancelling : (cleanup onDone).runtime.world.state.jobs["job"]?.all (·.cancelling) = true) :
    Reaches (.plain (cleaning onDone)) .silent "job" condition (cleanup onDone) := by
  obtain ⟨job, found, named, going, _, _⟩ := compiling_job
  have held : (cleanup onDone).runtime.world.state.Cancelling "job" := by
    intro other present
    rw [present] at cancelling
    exact cancelling
  have alive : ∀ other, (compiled onDone).runtime.world.state.jobs["job"]? = some other →
      other.id = "job" ∧ other.isTerminal = false := by
    intro other present
    have same : compiling.jobs["job"]? = some other := present
    rw [found] at same
    cases same
    exact ⟨named, going⟩
  unfold cleanup at held ⊢
  exact Reaches.cancel alive List.not_mem_nil rfl meets held

/-- A job that also cleans up when it is done is done after its cancellation. -/
theorem cancelled_job_ends_done :
    ¬∀ (outside : Outside) (others : OtherHandlers) (id : JobId) (run : CancelledRun),
      Reaches outside others id (fun _ _ => True) run → run.NeverDone id := by
  intro never
  have reaches : Reaches (.plain (cleaning (some ⟨"cleanup"⟩))) .silent "job" (fun _ _ => True)
      ((cleanup (some ⟨"cleanup"⟩)).next (.plain (cleaning (some ⟨"cleanup"⟩))) .silent "job"
        .advance) :=
    .next (reaches_cleanup _ trivial (by decide +kernel)) trivial trivial
  have done : (((cleanup (some ⟨"cleanup"⟩)).next (.plain (cleaning (some ⟨"cleanup"⟩))) .silent
      "job" .advance).runtime.world.state.jobs["job"]?).map (·.step) = some "done" := by
    decide +kernel
  obtain ⟨job, found, step⟩ := Option.map_eq_some_iff.mp done
  have terminal : job.isTerminal = true := by
    rw [Job.isTerminal, step]
    decide
  rcases (never _ _ _ _ reaches).ends job found terminal with ended | ended
  · rw [step] at ended
    exact absurd ended (by decide)
  · rw [step] at ended
    exact absurd ended (by decide)

/-- Without an edge behind the cleanup the job is cancelled. -/
theorem cancelled_job_ends_cancelled :
    (((cleanup none).next (.plain (cleaning none)) .silent "job"
      .advance).runtime.world.state.jobs["job"]?).map (·.step) = some "cancelled" ∧
    ((cleanup none).next (.plain (cleaning none)) .silent "job" .advance).NeverDone "job" := by
  refine ⟨by decide +kernel, cancelled_job_never_done (.plain (cleaning none)) .silent "job" ?_⟩
  refine .next (reaches_cleanup none ?_ (by decide +kernel)) trivial ?_
  · intro job present _ _ runbook known
    obtain ⟨_, found, _, _, step, kind⟩ := compiling_job
    have same : compiling.jobs["job"]? = some job := present
    rw [found] at same
    cases same
    obtain ⟨stored, _, decoded⟩ := Option.bind_eq_some_iff.mp known
    cases decoded
    have route : job.cancelRoute ((cleaning none).getJob job.kind) = .start "cleanup" := by
      rw [Job.cancelRoute, step, kind]
      decide +kernel
    rw [route]
    exact (by decide : "cleanup" ≠ "done")
  · -- behind the cleanup the flag is asked for
    have routes : ((cleanup none).runtime.world.state.jobs["job"]?).all (fun job =>
        !job.isTerminal && ((cleanup none).runtime.runbookAt (.plain (cleaning none))
          job.runbookHash).all fun runbook =>
            decide (job.doneRoute (runbook.getJob job.kind) = .cancel)) = true := by
      decide +kernel
    intro job present
    rw [present] at routes
    obtain ⟨going, routes⟩ := Bool.and_eq_true_iff.mp routes
    refine ⟨by simpa using going, fun runbook known => ?_⟩
    rw [known] at routes
    rw [of_decide_eq_true routes]
    trivial

end CancelledRun

end OddJobs
